import BuildingModel.Number.Shortest
import BuildingModel.Shape.Polygon

/-!
# Profiles

A plane figure with holes. The outer loop runs counter-clockwise and every hole clockwise; a last point
that repeats the first is left out.
-/

namespace BuildingModel

/-- A plane figure with holes. -/
structure Profile (α : Type) where
  outer : List (Vec2 α)
  holes : List (List (Vec2 α))

/-- The points of a figure, and its triangles as places in the list of points. -/
structure Triangulation (α : Type) where
  points : List (Vec2 α)
  indices : List Nat

namespace Profile

variable {α : Type} [Scalar α]

/-- A loop without a last point that repeats the first one. -/
def dropClosing (ring : List (Vec2 α)) : List (Vec2 α) :=
  match ring, ring.getLast? with
  | first :: _ :: _, some last => if (first - last).norm < 1e-9 then ring.dropLast else ring
  | _, _ => ring

/-- A loop that runs in the given sense. -/
def orient (counterClockwise : Bool) (ring : List (Vec2 α)) : List (Vec2 α) :=
  let ring := dropClosing ring
  if decide (0 < Polygon.signedArea ring) != counterClockwise then ring.reverse else ring

/-- The figure inside a loop. -/
def ofLoop (outer : List (Vec2 α)) : Except ShapeError (Profile α) :=
  let outer := orient true outer
  if outer.length < 3 then .error (.invalidProfile s!"outer loop with {outer.length} points")
  else .ok ⟨outer, []⟩

/-- Cut a hole. Fewer than three points are no hole. -/
def addHole (p : Profile α) (hole : List (Vec2 α)) : Profile α :=
  let hole := orient false hole
  if 3 ≤ hole.length then { p with holes := p.holes ++ [hole] } else p

/-- Turn a figure so that the first axis points along `axis`, then move it. -/
def transform (p : Profile α) (origin : Vec2 α) (axis : Vec2 α) : Profile α :=
  let place (q : Vec2 α) : Vec2 α :=
    ⟨q.x * axis.x - q.y * axis.y + origin.x, q.x * axis.y + q.y * axis.x + origin.y⟩
  ⟨p.outer.map place, p.holes.map (·.map place)⟩

/-- The points of the outer loop, then those of the holes. -/
def points (p : Profile α) : List (Vec2 α) := p.outer ++ p.holes.flatten

/-- The triangles of a figure. -/
def triangulate (p : Profile α) (clip : Clipper α) : Except ShapeError (Triangulation α) := do
  let indices ← Polygon.triangulateWithHoles clip p.outer p.holes
  return ⟨p.points, indices⟩

/-- A rectangle around the origin. -/
def rectangle (x y : Float) : Except ShapeError (Profile Float) :=
  if x ≤ 0 || y ≤ 0 then
    .error (.invalidProfile s!"rectangle {Number.doubleText x} x {Number.doubleText y}")
  else
    let (a, b) := (x / 2.0, y / 2.0)
    ofLoop [⟨-a, -b⟩, ⟨a, -b⟩, ⟨a, b⟩, ⟨-a, b⟩]

/-- The number of points that stand for a circle. -/
def circlePoints : Nat := 24

/-- A circle around the origin. -/
def circle (radius : Float) : Except ShapeError (Profile Float) :=
  if radius ≤ 0 then .error (.invalidProfile s!"circle radius {Number.doubleText radius}")
  else
    ofLoop <| (List.range circlePoints).map fun i =>
      let angle := i.toFloat * 2.0 * 3.141592653589793 / circlePoints.toFloat
      ⟨radius * angle.cos, radius * angle.sin⟩

end Profile

end BuildingModel
