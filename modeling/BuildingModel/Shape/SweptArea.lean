import BuildingModel.Shape.Curve
import BuildingModel.Shape.Profile

/-!
# Swept areas

Readers of the profiles that a model defines: rectangles and circles by their size, and areas inside
curves.
-/

namespace BuildingModel.LinkedModel

/-- The area inside a curve, seen from above. -/
def areaInside (m : LinkedModel) (e : LinkedEntity) : Except ShapeError (Profile Float) := do
  Profile.ofLoop ((← m.curvePoints (← m.required e 2)).map (·.xy))

/-- Place a profile by the frame that the third parameter links to. -/
def placeProfile (m : LinkedModel) (e : LinkedEntity) (p : Profile Float) :
    Except ShapeError (Profile Float) :=
  match m.follow? e 2 with
  | none => .ok p
  | some position => do
    let (origin, axis) ← m.frame2 position
    return p.transform origin axis.xy

/-- A profile. -/
def profile (m : LinkedModel) (e : LinkedEntity) : Except ShapeError (Profile Float) := do
  match e.kind with
  | .rectangleProfileDef =>
    let x ← e.requiredNumber 3
    let y ← e.requiredNumber 4
    m.placeProfile e (← Profile.rectangle x y)
  | .circleProfileDef =>
    let radius ← e.requiredNumber 3
    m.placeProfile e (← Profile.circle radius)
  | .arbitraryClosedProfileDef => m.areaInside e
  | .arbitraryProfileDefWithVoids =>
    let area ← m.areaInside e
    (m.linkedList e 3).foldlM (fun p curve => do
      return p.addHole ((← m.curvePoints curve).map (·.xy))) area
  | kind => throw (.unsupported kind)

end BuildingModel.LinkedModel
