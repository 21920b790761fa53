import BuildingModel.Space.Box

/-!
# Meshes

Buffers of vertices with normals and of triangles between them. Each vertex takes three entries of the
buffer of positions and three of the buffer of normals, each triangle three entries of the buffer of
indices. A line segment is stored as a triangle whose last two corners are the same.
-/

namespace BuildingModel

/-- How the triangles of a mesh are drawn. -/
inductive Primitive where
  | triangles
  | lines
deriving DecidableEq, Repr, Inhabited

/-- A list cut into groups of three; what is left over is dropped. -/
def triples {β : Type} : List β → List (β × β × β)
  | a :: b :: c :: rest => (a, b, c) :: triples rest
  | _ => []

/-- Change each group of three; what is left over stays. -/
def mapTriples {β : Type} (f : β × β × β → β × β × β) : List β → List β
  | a :: b :: c :: rest =>
    let (x, y, z) := f (a, b, c)
    x :: y :: z :: mapTriples f rest
  | rest => rest

/-- A mesh that may still be incomplete. -/
structure Mesh (α : Type) where
  positions : Array α
  normals : Array α
  indices : Array UInt32
deriving DecidableEq, Repr, Inhabited

namespace Mesh

variable {α : Type}

/-- The mesh without vertices. -/
def empty : Mesh α := ⟨#[], #[], #[]⟩

/-- The number of vertices. -/
def vertexCount (m : Mesh α) : Nat := m.positions.size / 3

/-- The number of triangles. -/
def triangleCount (m : Mesh α) : Nat := m.indices.size / 3

/-- Whether there is nothing in a mesh. -/
def isEmpty (m : Mesh α) : Bool := m.positions.isEmpty

/-- The index of the next vertex. -/
def nextIndex (m : Mesh α) : UInt32 := m.vertexCount.toUInt32

/-- Add a vertex. -/
def addVertex (m : Mesh α) (position normal : Vec3 α) : Mesh α :=
  { m with
    positions := m.positions ++ position.toList
    normals := m.normals ++ normal.toList }

/-- Add a triangle between vertices. -/
def addTriangle (m : Mesh α) (a b c : UInt32) : Mesh α :=
  { m with indices := m.indices ++ [a, b, c] }

/-- Add a line segment between vertices. -/
def addSegment (m : Mesh α) (a b : UInt32) : Mesh α := m.addTriangle a b b

/-- Both meshes in one. -/
def merge (m n : Mesh α) : Mesh α :=
  if n.isEmpty then m
  else
    { positions := m.positions ++ n.positions
      normals := m.normals ++ n.normals
      indices := m.indices ++ n.indices.map (· + m.nextIndex) }

/-- The corners of all triangles. -/
def triangles (m : Mesh α) : List (UInt32 × UInt32 × UInt32) := triples m.indices.toList

/-- The positions of all vertices. -/
def points (m : Mesh α) : List (Vec3 α) := (triples m.positions.toList).map fun (x, y, z) => ⟨x, y, z⟩

/-- Exchange the last two corners of every triangle, so that all face the other way. -/
def turnOver (m : Mesh α) : Mesh α :=
  { m with indices := (mapTriples (fun (a, b, c) => (a, c, b)) m.indices.toList).toArray }

variable [Scalar α]

/-- The position of a vertex. -/
def point (m : Mesh α) (i : Nat) : Vec3 α :=
  ⟨m.positions.getD (3 * i) 0, m.positions.getD (3 * i + 1) 0, m.positions.getD (3 * i + 2) 0⟩

/-- The normal of a vertex. -/
def normal (m : Mesh α) (i : Nat) : Vec3 α :=
  ⟨m.normals.getD (3 * i) 0, m.normals.getD (3 * i + 1) 0, m.normals.getD (3 * i + 2) 0⟩

/-- Multiply all positions by a factor. -/
def scale (m : Mesh α) (factor : α) : Mesh α :=
  if factor == 1 then m else { m with positions := m.positions.map (· * factor) }

/-- For each vertex the sum of the normals of its triangles, each as long as its triangle is large. -/
def summedNormals (m : Mesh α) : Array (Vec3 α) :=
  m.triangles.foldl
    (fun sums (a, b, c) =>
      let p := m.point a.toNat
      let face := (m.point b.toNat - p).cross (m.point c.toNat - p)
      let add (sums : Array (Vec3 α)) (i : UInt32) := sums.modify i.toNat (· + face)
      add (add (add sums a) b) c)
    (Array.replicate m.vertexCount 0)

/-- Smooth normals from the triangles. A vertex without direction faces up. -/
def recomputeNormals (m : Mesh α) : Mesh α :=
  { m with normals := (m.summedNormals.toList.flatMap fun n =>
      ((n.normalize? 1e-12).getD Vec3.unitZ).toList).toArray }

end Mesh

/-- Apply a function to all points or vectors of a buffer, in double precision. -/
def mapBuffer (f : Vec3 Float → Vec3 Float) (buffer : Array Float32) : Array Float32 :=
  (mapTriples (fun (x, y, z) =>
    let q := (f (Vec3.toDouble ⟨x, y, z⟩)).toSingle
    (q.x, q.y, q.z)) buffer.toList).toArray

/-- The image of a normal under the transposed inverse of a transformation. -/
def Mat4.transformNormal (inverseTransposed : Mat4 Float) (n : Vec3 Float) : Vec3 Float :=
  let image := (inverseTransposed.mulVec ⟨n.x, n.y, n.z, 0⟩).xyz
  (image.normalize? 1e-12).getD image

/-- Transform the positions of a mesh, and its normals by the transposed inverse. -/
def Mesh.transform (m : Mesh Float32) (t : Mat4 Float) : Mesh Float32 :=
  let forNormals := (t.inverse?.getD t).transpose
  { m with
    positions := mapBuffer t.transformPoint m.positions
    normals := mapBuffer forNormals.transformNormal m.normals }

/-- Add a vertex given in double precision. -/
def Mesh.addPoint (m : Mesh Float32) (position normal : Vec3 Float) : Mesh Float32 :=
  m.addVertex position.toSingle normal.toSingle

end BuildingModel
