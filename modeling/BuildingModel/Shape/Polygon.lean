import BuildingModel.Shape.Error
import BuildingModel.Space.Vector

/-!
# Polygons

Area, convexity and triangles of closed loops of points, and the planes that loops in space span. Small
convex polygons are cut into a fan; all others by a clipper such as ear clipping.
-/

namespace BuildingModel

/-- Each member of a loop with the one after it; the first follows the last. -/
def closedPairs {β : Type} : List β → List (β × β)
  | [] => []
  | p :: rest => (p :: rest).zip (rest ++ [p])

/-- There are as many edges as corners. -/
theorem length_closedPairs {β : Type} (ps : List β) : (closedPairs ps).length = ps.length := by
  cases ps <;> simp [closedPairs]

/-- A way to cut a polygon with holes into triangles: three places for each in the list of all points, first those
of the outer loop, then those of each hole; or none if it cannot be cut. -/
abbrev Clipper (α : Type) := List (Vec2 α) → List (List (Vec2 α)) → Option (List Nat)

namespace Polygon

variable {α : Type} [Scalar α]

/-- The area that a loop encloses: positive if it runs counter-clockwise. -/
def signedArea (ps : List (Vec2 α)) : α :=
  (closedPairs ps).foldl (fun sum (a, b) => sum + (a.x * b.y - b.x * a.y)) 0 * 0.5

/-- Turns and lengths up to this size count as none. -/
def flatness : α := 1e-10

/-- How far one edge turns into the next: positive for a left turn. -/
def edgeTurn (e f : Vec2 α × Vec2 α) : α :=
  (e.2.x - e.1.x) * (f.2.y - f.1.y) - (e.2.y - e.1.y) * (f.2.x - f.1.x)

/-- The signs of the turns of a loop, straight corners left out. -/
def turnSigns (ps : List (Vec2 α)) : List α :=
  let turns := (closedPairs (closedPairs ps)).map fun (e, f) => edgeTurn e f
  (turns.filter fun t => !decide (Scalar.abs t ≤ flatness)).map Scalar.signOf

/-- Whether a loop turns to one side only. -/
def isConvex (ps : List (Vec2 α)) : Bool :=
  match turnSigns ps with
  | [] => true
  | s :: rest => rest.all (· == s)

/-- The triangles of a fan from the first of `n` points. -/
def fan (n : Nat) : List Nat := (List.range (n - 2)).flatMap fun i => [0, i + 1, i + 2]

/-- Up to this number of points a convex polygon is cut into a fan. -/
def fanLimit : Nat := 8

/-- Whether a polygon is cut into a fan. -/
def takesFan (ps : List (Vec2 α)) : Bool :=
  ps.length == 3 || (ps.length ≤ fanLimit && isConvex ps)

/-- The triangles that a clipper gives. -/
def clipped (clip : Clipper α) (outer : List (Vec2 α)) (holes : List (List (Vec2 α))) :
    Except ShapeError (List Nat) :=
  match clip outer holes with
  | some triangles => .ok triangles
  | none => .error (.triangulation "Unknown")

/-- The triangles of a polygon, three places of the list of points for each. -/
def triangulate (clip : Clipper α) (ps : List (Vec2 α)) : Except ShapeError (List Nat) :=
  if ps.length < 3 then .error (.triangulation s!"polygon with {ps.length} points")
  else if takesFan ps then .ok (fan ps.length)
  else clipped clip ps []

/-- Holes of fewer than three points are no holes. -/
def realHoles {β : Type} (holes : List (List β)) : List (List β) := holes.filter (3 ≤ ·.length)

/-- The triangles of a polygon with holes. The places count the points of the outer loop, then those
of the holes that have at least three points. -/
def triangulateWithHoles (clip : Clipper α) (outer : List (Vec2 α)) (holes : List (List (Vec2 α))) :
    Except ShapeError (List Nat) :=
  match realHoles holes with
  | [] => triangulate clip outer
  | holes =>
    if outer.length < 3 then .error (.triangulation s!"outer boundary with {outer.length} points")
    else clipped clip outer holes

/-- The direction in which a loop in space faces: the sum over its edges, or up if that is too short. -/
def normal (ps : List (Vec3 α)) : Vec3 α :=
  if ps.length < 3 then Vec3.unitZ
  else
    let sum := (closedPairs ps).foldl
      (fun (sum : Vec3 α) (a, b) => sum + ⟨(a.y - b.y) * (a.z + b.z), (a.z - b.z) * (a.x + b.x),
        (a.x - b.x) * (a.y + b.y)⟩) 0
    (sum.normalize? flatness).getD Vec3.unitZ

end Polygon

/-- A plane in space with an origin and two axes. -/
structure PlaneFrame (α : Type) where
  origin : Vec3 α
  u : Vec3 α
  v : Vec3 α

namespace PlaneFrame

variable {α : Type} [Scalar α]

/-- The plane through a point across a direction. The first axis lies across the axis of space that is
farthest from the direction. -/
def ofNormal (origin normal : Vec3 α) : PlaneFrame α :=
  let (x, y, z) := (Scalar.abs normal.x, Scalar.abs normal.y, Scalar.abs normal.z)
  let reference :=
    if x ≤ y && x ≤ z then Vec3.unitX
    else if y ≤ z then Vec3.unitY
    else Vec3.unitZ
  let u := (normal.cross reference).normalize
  ⟨origin, u, (normal.cross u).normalize⟩

/-- The coordinates of a point of space in a plane. -/
def project (f : PlaneFrame α) (p : Vec3 α) : Vec2 α :=
  let d := p - f.origin
  ⟨d.dot f.u, d.dot f.v⟩

end PlaneFrame

end BuildingModel
