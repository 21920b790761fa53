import BuildingModel.Shape.Digest
import BuildingModel.Shape.Error
import BuildingModel.Shape.Mesh
import BuildingModel.Space.Stored

/-!
# Geometries

The checked mesh of one entity, with its box and a digest of its content. Shapes with the same content
have the same digest, so that they can be stored and drawn together.
-/

namespace BuildingModel

/-- A colour by its parts of red, green and blue. -/
structure Color where
  red : Float32
  green : Float32
  blue : Float32
deriving DecidableEq, Repr, Inhabited

/-- The parts in order. -/
def Color.toList (c : Color) : List Float32 := [c.red, c.green, c.blue]

/-- The four bytes of a word, the lowest first. -/
def wordBytes (w : UInt32) : List UInt8 :=
  [w.toUInt8, (w >>> 8).toUInt8, (w >>> 16).toUInt8, (w >>> 24).toUInt8]

/-- The byte that stands for a way of drawing. -/
def Primitive.tag : Primitive → UInt8
  | .triangles => 0
  | .lines => 1

/-- The checked mesh of one entity. -/
structure Geometry (α : Type) where
  entity : EntityId
  kind : Kind
  primitive : Primitive
  mesh : Mesh α
  color : Color
  /-- The least box around all vertices. -/
  bounds : Box α
  /-- The digest of the content. -/
  hash : UInt64

/-- What a digest is taken of: the way of drawing, all positions, all indices. -/
def Mesh.contentBytes {α : Type} [Stored α] (m : Mesh α) (primitive : Primitive) : List UInt8 :=
  primitive.tag :: (m.positions.toList.flatMap (wordBytes ∘ Stored.bits) ++
    m.indices.toList.flatMap wordBytes)

namespace Geometry

variable {α : Type} [Stored α]

/-- What is wrong with a mesh, if anything. Vertices are counted in the 32 bits of an index. -/
def fault? (entity : EntityId) (m : Mesh α) : Option ShapeError :=
  let count := m.vertexCount.toUInt32
  if m.isEmpty || m.indices.isEmpty then some (.emptyMesh s!"#{entity}")
  else if m.positions.size % 3 ≠ 0 || m.indices.size % 3 ≠ 0 then
    some (.invalidMesh s!"#{entity}: buffer length not a multiple of 3")
  else match m.indices.find? (count ≤ ·) with
    | some i =>
      some (.invalidMesh s!"#{entity}: index {i} out of range ({count} vertices)")
    | none =>
      if m.positions.any (!Scalar.isFinite ·) then
        some (.invalidMesh s!"#{entity}: non-finite position")
      else none

/-- The mesh with one normal for each vertex. -/
def completeNormals (m : Mesh α) : Mesh α :=
  if m.normals.size = m.positions.size then m else m.recomputeNormals

/-- Check a mesh. -/
def ofMesh (entity : EntityId) (kind : Kind) (primitive : Primitive) (m : Mesh α) (color : Color) :
    Except ShapeError (Geometry α) :=
  match fault? entity m with
  | some fault => .error fault
  | none =>
    .ok { entity, kind, primitive, color
          mesh := completeNormals m
          bounds := Box.ofPoints m.points
          hash := Digest.hash64 (m.contentBytes primitive) }

/-- Another mesh for the same entity. -/
def derive (g : Geometry α) (primitive : Primitive) (m : Mesh α) : Except ShapeError (Geometry α) :=
  ofMesh g.entity g.kind primitive m g.color

/-- The number of vertices. -/
def vertexCount (g : Geometry α) : Nat := g.mesh.vertexCount

/-- The number of triangles. -/
def triangleCount (g : Geometry α) : Nat := g.mesh.triangleCount

/-- The colour of the entity for each vertex. -/
def vertexColors (g : Geometry α) : List Float32 :=
  (List.replicate g.vertexCount g.color.toList).flatten

/-- The corners of a triangle. -/
def corners (g : Geometry α) (i : Nat) : Vec3 α × Vec3 α × Vec3 α :=
  let corner (k : Nat) := g.mesh.point (g.mesh.indices.getD (3 * i + k) 0).toNat
  (corner 0, corner 1, corner 2)

end Geometry

end BuildingModel
