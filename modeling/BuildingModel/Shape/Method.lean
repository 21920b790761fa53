import BuildingModel.Shape.EarClip
import BuildingModel.Shape.Extrusion
import BuildingModel.Shape.Faces
import BuildingModel.Shape.SweptArea

/-!
# Shapes of items

How the mesh of a representation item is made, and the table that says which kinds of items are made in
which way.
-/

namespace BuildingModel

namespace LinkedModel

/-- The mesh of an extruded area. -/
def extrusionMesh (m : LinkedModel) (clip : Clipper Float) (item : LinkedEntity) :
    Except ShapeError (Mesh Float32) := do
  let profile ← m.profile (← m.required item 0)
  let position ← (m.follow? item 1).mapM m.frame3
  let direction ← (m.follow? item 2).mapM (·.direction)
  let depth ← item.requiredNumber 3
  Extrusion.extrude clip profile depth direction position

/-- Add a triangle given by three numbers of points from one on. -/
def addNumbered (item : EntityId) (count : Nat) (mesh : Mesh Float32) (triangle : LinkedValue) :
    Except ShapeError (Mesh Float32) :=
  match (triangle.list?.getD []).filterMap (·.integer?) with
  | [a, b, c] =>
    match [a, b, c].find? fun i => i.toInt < 1 || (count : Int) < i.toInt with
    | some bad => .error (.invalidMesh s!"#{item}: index {bad} outside 1..={count}")
    | none =>
      let place (i : Int64) : UInt32 := (i.toInt.toNat - 1).toUInt32
      .ok (mesh.addTriangle (place a) (place b) (place c))
  | corners => .error (.invalidMesh s!"#{item}: triangle with {corners.length} indices")

/-- The mesh of a set of triangles over a list of points. -/
def faceSetMesh (m : LinkedModel) (item : LinkedEntity) : Except ShapeError (Mesh Float32) := do
  let points ← (← m.required item 0).pointList
  let triangles ← item.requiredList 3
  let vertices := points.foldl (fun mesh p => mesh.addPoint p 0) Mesh.empty
  let mesh ← triangles.foldlM (addNumbered item.id points.length) vertices
  return mesh.recomputeNormals

/-- The mesh of a curve: a segment from each point to the next. -/
def curveMesh (m : LinkedModel) (item : LinkedEntity) : Except ShapeError (Mesh Float32) := do
  let points ← m.curvePoints item
  if points.length < 2 then
    throw (.emptyMesh s!"#{item.id}: curve with {points.length} points")
  let vertices := points.foldl (fun mesh p => mesh.addPoint p Vec3.unitZ) Mesh.empty
  return (List.range (points.length - 1)).foldl
    (fun mesh i => mesh.addSegment i.toUInt32 (i + 1).toUInt32) vertices

end LinkedModel

/-- A way to make the meshes of some kinds of items. -/
structure ShapeMethod where
  /-- The kinds of items that are made in this way. -/
  kinds : List Kind
  /-- How the mesh is drawn. -/
  primitive : Primitive
  /-- Make the mesh of an item. -/
  mesh : LinkedModel → LinkedEntity → Except ShapeError (Mesh Float32)

namespace ShapeMethod

/-- Solids that a profile sweeps over. -/
def extrusion (clip : Clipper Float) : ShapeMethod :=
  ⟨[.extrudedAreaSolid], .triangles, fun m item => m.extrusionMesh clip item⟩

/-- Triangles over a list of points. -/
def faceSet : ShapeMethod := ⟨[.triangulatedFaceSet], .triangles, LinkedModel.faceSetMesh⟩

/-- Plane faces, alone or in shells. -/
def faces (clip : Clipper Float) : ShapeMethod :=
  ⟨[.facetedBrep, .shellBasedSurfaceModel, .face, .faceOuterBound, .faceBound], .triangles,
    fun m item => m.facesMesh clip item⟩

/-- Lines through points. -/
def curve : ShapeMethod := ⟨[.polyline, .indexedPolyCurve], .lines, LinkedModel.curveMesh⟩

/-- The ways that this library knows. -/
def all (clip : Clipper Float) : List ShapeMethod := [extrusion clip, faceSet, faces clip, curve]

end ShapeMethod

/-- Which kinds of items are made in which way. -/
structure MethodTable where
  entries : List (Kind × ShapeMethod)

namespace MethodTable

/-- No kind at all. -/
def empty : MethodTable := ⟨[]⟩

/-- Make all kinds of a method in that way. -/
def register (t : MethodTable) (method : ShapeMethod) : MethodTable :=
  ⟨method.kinds.map (·, method) ++ t.entries.filter fun (kind, _) => !method.kinds.contains kind⟩

/-- The table of some methods. -/
def ofMethods (methods : List ShapeMethod) : MethodTable := methods.foldl register empty

/-- The table of all methods, with ear clipping for polygons. -/
def standard : MethodTable := ofMethods (ShapeMethod.all earClip)

/-- The way in which a kind of items is made. -/
def method? (t : MethodTable) (kind : Kind) : Option ShapeMethod := t.entries.lookup kind

/-- Whether a kind of items can be made. -/
def supports (t : MethodTable) (kind : Kind) : Bool := (t.method? kind).isSome

/-- The mesh of an item, and how it is drawn. -/
def process (t : MethodTable) (m : LinkedModel) (item : LinkedEntity) :
    Except ShapeError (Mesh Float32 × Primitive) :=
  match t.method? item.kind with
  | none => .error (.unsupported item.kind)
  | some method => do return (← method.mesh m item, method.primitive)

/-- The names of all kinds of items that can be made, in order. -/
def kindNames (t : MethodTable) : List String :=
  (t.entries.map fun (kind, _) => kind.name).mergeSort (· ≤ ·)

/-- A table in one line. -/
def summary (t : MethodTable) : String :=
  let names := ", ".intercalate (t.kindNames.map fun name => "\"" ++ name ++ "\"")
  "GeometryRouter \x7b kinds: [" ++ names ++ "] \x7d"

end MethodTable

end BuildingModel
