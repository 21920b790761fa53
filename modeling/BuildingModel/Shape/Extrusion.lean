import BuildingModel.Shape.Mesh
import BuildingModel.Shape.Profile

/-!
# Extrusion

The closed solid that a profile sweeps over when it moves along a direction: two caps and a wall for
each edge.
-/

namespace BuildingModel.Extrusion

/-- Add the triangles of a profile at a height. The cap at height zero faces down. -/
def addCap (mesh : Mesh Float32) (t : Triangulation Float) (height : Float) : Mesh Float32 :=
  let bottom := height == 0
  let normal : Vec3 Float := if bottom then -Vec3.unitZ else Vec3.unitZ
  let base := mesh.nextIndex
  let withPoints := t.points.foldl (fun m p => m.addPoint ⟨p.x, p.y, height⟩ normal) mesh
  (triples t.indices).foldl
    (fun m (i, j, k) =>
      let (a, b, c) := (base + i.toUInt32, base + j.toUInt32, base + k.toUInt32)
      if bottom then m.addTriangle a c b else m.addTriangle a b c)
    withPoints

/-- Add the wall over an edge; an edge without length has none. -/
def addWall (depth : Float) (mesh : Mesh Float32) (edge : Vec2 Float × Vec2 Float) : Mesh Float32 :=
  let (p, q) := edge
  let along := q - p
  match Vec3.normalize? ⟨along.y, -along.x, 0⟩ 1e-10 with
  | none => mesh
  | some normal =>
    let a := mesh.nextIndex
    let withPoints := (((mesh.addPoint ⟨p.x, p.y, 0⟩ normal).addPoint ⟨q.x, q.y, 0⟩ normal).addPoint
      ⟨q.x, q.y, depth⟩ normal).addPoint ⟨p.x, p.y, depth⟩ normal
    (withPoints.addTriangle a (a + 1) (a + 2)).addTriangle a (a + 2) (a + 3)

/-- Add the walls over all edges of a loop. -/
def addWalls (mesh : Mesh Float32) (ring : List (Vec2 Float)) (depth : Float) : Mesh Float32 :=
  (closedPairs ring).foldl (addWall depth) mesh

/-- The solid straight above a profile. -/
def prism (profile : Profile Float) (t : Triangulation Float) (depth : Float) : Mesh Float32 :=
  (profile.outer :: profile.holes).foldl (fun m ring => addWalls m ring depth)
    (addCap (addCap Mesh.empty t 0) t depth)

/-- Incline a solid so that what was above points along a direction. -/
def incline (mesh : Mesh Float32) (direction : Vec3 Float) : Mesh Float32 :=
  if 1e-9 < (direction - Vec3.unitZ).norm then
    let inclined := mesh.transform (Mat4.ofFrame Vec3.unitX Vec3.unitY direction 0)
    if direction.z < 0 then inclined.turnOver else inclined
  else mesh

/-- The solid that a profile sweeps over along a direction, straight up if none is given, placed by a
transformation. -/
def extrude (clip : Clipper Float) (profile : Profile Float) (depth : Float) (direction : Option (Vec3 Float))
    (placement : Option (Mat4 Float)) : Except ShapeError (Mesh Float32) := do
  if !(0 < depth && depth.isFinite) then
    throw (.invalidExtrusion s!"depth {Number.doubleText depth}")
  let solid := prism profile (← profile.triangulate clip) depth
  let inclined ← match direction with
    | none => pure solid
    | some d =>
      if Scalar.abs d.z < 1e-9 then
        let text := ", ".intercalate (d.toList.map Number.doubleText)
        throw (.invalidExtrusion s!"direction ({text}) lies in the profile plane")
      pure (incline solid d)
  return match placement with
    | none => inclined
    | some t => inclined.transform t

end BuildingModel.Extrusion
