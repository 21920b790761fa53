import BuildingModel.Shape.Placement

/-!
# Curves

The points of lines through points. A curve over a list of points names them by numbers from one on.
-/

namespace BuildingModel

/-- A list without the members that repeat the one before. -/
def dropSame {α : Type} [Scalar α] (last : Vec3 α) : List (Vec3 α) → List (Vec3 α)
  | [] => []
  | p :: rest => if p.same last then dropSame last rest else p :: dropSame p rest

/-- A list of points without repetitions in a row. -/
def withoutRepeats {α : Type} [Scalar α] : List (Vec3 α) → List (Vec3 α)
  | [] => []
  | p :: rest => p :: dropSame p rest

/-- The numbers of points in a segment of a curve. -/
def LinkedValue.segmentNumbers : LinkedValue → List Int64
  | .typed _ (numbers :: _) => (numbers.list?.getD []).filterMap (·.integer?)
  | _ => []

/-- The difference of two numbers of 64 bits, unless it has more of them. -/
def difference? (a b : Int64) : Option Int64 := if (a - b).toInt = a.toInt - b.toInt then some (a - b) else none

/-- The point of a curve with a number from one on. Its place is one less, in 64 bits. -/
def numberedPoint (curve : EntityId) (points : Array (Vec3 Float)) (number : Int64) :
    Except ShapeError (Vec3 Float) :=
  match difference? number 1 with
  | none => .error .overflow
  | some place =>
    match if 0 ≤ place then points[place.toNatClampNeg]? else none with
    | some p => .ok p
    | none => .error (.geometry s!"#{curve}: segment index {number} out of range")

/-- The points of the segments of a curve. -/
def segmentPoints (curve : EntityId) (points : Array (Vec3 Float)) (segments : List LinkedValue) :
    Except ShapeError (List (Vec3 Float)) := do
  return withoutRepeats (← (segments.flatMap (·.segmentNumbers)).mapM (numberedPoint curve points))

/-- The points of a curve. -/
def LinkedModel.curvePoints (m : LinkedModel) (e : LinkedEntity) :
    Except ShapeError (List (Vec3 Float)) := do
  match e.kind with
  | .polyline => m.linkedPoints (← e.requiredList 0)
  | .indexedPolyCurve =>
    let points ← (← m.required e 0).pointList
    match e.list? 1 with
    | some segments => segmentPoints e.id points.toArray segments
    | none => return points
  | .cartesianPoint => return [← e.cartesianPoint]
  | kind => throw (.unsupported kind)

end BuildingModel
