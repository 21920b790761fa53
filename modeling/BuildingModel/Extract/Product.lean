import BuildingModel.Extract.Rules
import BuildingModel.Shape.Method

/-!
# Shapes of products

The mesh of a product is made of the items of one of its representations. Bodies come first; within a
representation, triangles win over lines. An item that fails does not spoil the others, unless it overflows.
-/

namespace BuildingModel

/-- An entity with its shape and its place in the world. -/
structure PlacedShape (α : Type) where
  entity : EntityId
  kind : Kind
  name : Option String
  geometry : Geometry α
  transform : Mat4 α

/-- What the items of a representation have given. -/
structure Gathered where
  triangles : Mesh Float32
  lines : Mesh Float32
  /-- The first thing that went wrong, in this or an earlier representation. -/
  error : Option ShapeError

namespace Gathered

/-- Take in the mesh of an item. Items that cannot be made count for nothing. -/
def add (table : MethodTable) (m : LinkedModel) (g : Gathered) (item : LinkedEntity) :
    Except ShapeError Gathered :=
  if !table.supports item.kind then .ok g
  else match table.process m item with
    | .ok (mesh, .triangles) => .ok { g with triangles := g.triangles.merge mesh }
    | .ok (mesh, .lines) => .ok { g with lines := g.lines.merge mesh }
    | .error e => if e = .overflow then .error e else .ok { g with error := some (g.error.getD e) }

end Gathered

namespace LinkedModel

/-- What the items of a representation give. -/
def gather (m : LinkedModel) (table : MethodTable) (representation : LinkedEntity)
    (error : Option ShapeError) : Except ShapeError Gathered :=
  (m.linkedList representation 3).foldlM (Gathered.add table m) ⟨Mesh.empty, Mesh.empty, error⟩

/-- The mesh of the first representation that gives one. -/
def representedMesh (m : LinkedModel) (table : MethodTable) (product : EntityId) :
    List LinkedEntity → Option ShapeError → Except ShapeError (Mesh Float32 × Primitive)
  | [], error => .error (error.getD (.geometry s!"#{product}: no supported representation items"))
  | representation :: rest, error => do
    let g ← m.gather table representation error
    if !g.triangles.isEmpty then .ok (g.triangles, .triangles)
    else if !g.lines.isEmpty then .ok (g.lines, .lines)
    else m.representedMesh table product rest g.error

/-- Whether a representation shows the body of a product. -/
def isBody (representation : LinkedEntity) : Bool := representation.text? 1 = some "Body"

/-- The representations in a product's shape, bodies first. -/
def representations (m : LinkedModel) (shape : LinkedEntity) : List LinkedEntity :=
  let all := (m.linkedList shape 2).filter (·.kind = .shapeRepresentation)
  all.filter isBody ++ all.filter (!isBody ·)

/-- The mesh of a product. -/
def productMesh (m : LinkedModel) (table : MethodTable) (product : LinkedEntity) :
    Except ShapeError (Mesh Float32 × Primitive) := do
  let shape ← m.required product 6
  shape.expectKind .productDefinitionShape
  m.representedMesh table product.id (m.representations shape) none

/-- The place of a product in the world. -/
def productPlacement (m : LinkedModel) (product : LinkedEntity) : Except ShapeError (Mat4 Float) :=
  match m.follow? product 5 with
  | some placement => m.localPlacement placement
  | none => .ok Mat4.identity

/-- The mesh of an entity in its own coordinates, and its place in the world. -/
def placedMesh (m : LinkedModel) (table : MethodTable) (strategy : Strategy) (e : LinkedEntity) :
    Except ShapeError ((Mesh Float32 × Primitive) × Mat4 Float) :=
  match strategy with
  | .item => do return (← table.process m e, Mat4.identity)
  | .product => do
    let transform ← m.productPlacement e
    return (← m.productMesh table e, transform)

/-- Bring a mesh to metres. -/
def meshInMetres (mesh : Mesh Float32) (unit : Float) : Mesh Float32 :=
  if unit == 1 then mesh else mesh.scale unit.toFloat32

/-- Bring a place to metres: the origin moves, the axes stay. -/
def placeInMetres (t : Mat4 Float) (unit : Float) : Mat4 Float :=
  if unit == 1 then t
  else { t with w := ⟨t.w.x * unit, t.w.y * unit, t.w.z * unit, t.w.w⟩ }

/-- The shape of an entity in metres. -/
def placedShape (m : LinkedModel) (table : MethodTable) (unit : Float) (e : LinkedEntity)
    (rule : ExtractionRule) : Except ShapeError (PlacedShape Float32) := do
  let ((mesh, primitive), transform) ← m.placedMesh table rule.strategy e
  let geometry ← Geometry.ofMesh e.id e.kind primitive (meshInMetres mesh unit) rule.color
  return {
    entity := e.id
    kind := e.kind
    name := if rule.strategy = .product then e.name? else none
    geometry := geometry
    transform := (placeInMetres transform unit).map Float.toFloat32 }

end LinkedModel

end BuildingModel
