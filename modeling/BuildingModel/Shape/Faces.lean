import BuildingModel.Shape.Mesh
import BuildingModel.Shape.Placement
import BuildingModel.Shape.Polygon

/-!
# Faces

Plane faces with loops as boundaries, alone or in shells. Each face is cut into triangles in its own
plane; faces without triangles are left out.
-/

namespace BuildingModel

/-- The outer boundary of a face and those of its holes. -/
structure FaceLoops where
  outer : List (Vec3 Float)
  inner : List (List (Vec3 Float))

namespace FaceLoops

/-- The loops at all places but one are holes. -/
def ofLoops (loops : List (List (Vec3 Float))) (outerPlace : Nat) : FaceLoops :=
  ⟨loops.getD outerPlace [], loops.eraseIdx outerPlace⟩

/-- Add a triangle, turned so that it faces along the normal; without area it is left out. -/
def addFacing (flat : Array (Vec2 Float)) (mesh : Mesh Float32) (triangle : Nat × Nat × Nat) :
    Mesh Float32 :=
  let (a, b, c) := triangle
  let corner (i : Nat) := flat.getD i ⟨0, 0⟩
  let area := Polygon.signedArea [corner a, corner b, corner c]
  if Scalar.abs area < 1e-14 then mesh
  else if 0 < area then mesh.addTriangle a.toUInt32 b.toUInt32 c.toUInt32
  else mesh.addTriangle a.toUInt32 c.toUInt32 b.toUInt32

/-- The triangles of a face, if it has any. -/
def mesh? (face : FaceLoops) (clip : Clipper Float) : Option (Mesh Float32) := do
  let origin ← face.outer.head?
  if face.outer.length < 3 then none
  let normal := Polygon.normal face.outer
  let plane := PlaneFrame.ofNormal origin normal
  let outer := face.outer.map plane.project
  let holes := face.inner.map (·.map plane.project)
  let indices ← (Polygon.triangulateWithHoles clip outer holes).toOption
  let points := face.outer ++ (Polygon.realHoles face.inner).flatten
  let flat := outer ++ (Polygon.realHoles holes).flatten
  let vertices := points.foldl (fun m p => m.addPoint p normal) Mesh.empty
  let mesh := (triples indices).foldl (addFacing flat.toArray) vertices
  if mesh.indices.isEmpty then none
  return mesh

end FaceLoops

namespace LinkedModel

/-- The points of a boundary, in its own sense. -/
def boundPoints (m : LinkedModel) (bound : LinkedEntity) : Except ShapeError (List (Vec3 Float)) := do
  let ring ← m.required bound 0
  if ring.kind ≠ .polyLoop then throw (.unsupported ring.kind)
  let points ← m.linkedPoints (← ring.requiredList 0)
  return if (bound.param? 1).bind (·.bool?) = some false then points.reverse else points

/-- The loops of a face. The first boundary that is marked as outer is the outer one, or else the first
of all. -/
def faceLoops (m : LinkedModel) (face : LinkedEntity) : Except ShapeError FaceLoops := do
  let bounds := m.linkedList face 0
  let loops ← bounds.mapM m.boundPoints
  return .ofLoops loops ((bounds.findIdx? (·.kind = .faceOuterBound)).getD 0)

/-- The faces of a shell. -/
def shellFaces (m : LinkedModel) (shell : LinkedEntity) : Except ShapeError (List FaceLoops) := do
  if shell.kind ≠ .closedShell ∧ shell.kind ≠ .openShell then
    throw (.unexpectedKind shell.id "IFCCLOSEDSHELL" shell.kind)
  (m.linkedList shell 0).mapM m.faceLoops

/-- The faces of an item. -/
def faces (m : LinkedModel) (item : LinkedEntity) : Except ShapeError (List FaceLoops) := do
  match item.kind with
  | .facetedBrep => m.shellFaces (← m.required item 0)
  | .shellBasedSurfaceModel => return (← (m.linkedList item 0).mapM m.shellFaces).flatten
  | .face => return [← m.faceLoops item]
  | .faceOuterBound | .faceBound => return [⟨← m.boundPoints item, []⟩]
  | kind => throw (.unsupported kind)

/-- The triangles of all faces of an item. -/
def facesMesh (m : LinkedModel) (clip : Clipper Float) (item : LinkedEntity) :
    Except ShapeError (Mesh Float32) := do
  let mesh := ((← m.faces item).filterMap (·.mesh? clip)).foldl Mesh.merge Mesh.empty
  if mesh.isEmpty then throw (.emptyMesh s!"#{item.id}: no valid faces")
  return mesh

end LinkedModel

end BuildingModel
