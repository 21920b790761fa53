import BuildingModel.Linked.Model
import BuildingModel.Shape.Error
import BuildingModel.Space.Matrix

/-!
# Points, directions and placements

Readers of the entities that every shape needs. A placement is a frame relative to the placement of the
thing around it; the frames of the whole chain make up its place in the world.
-/

namespace BuildingModel

/-- Fail unless an entity is of a kind. -/
def LinkedEntity.expectKind (e : LinkedEntity) (kind : Kind) : Except ShapeError Unit :=
  if e.kind = kind then .ok () else .error (.unexpectedKind e.id kind.name e.kind)

/-- The list at a place. -/
def LinkedEntity.requiredList (e : LinkedEntity) (i : Nat) : Except ShapeError (List LinkedValue) :=
  match e.list? i with
  | some items => .ok items
  | none => .error (.missingParam e.id i)

/-- The number at a place. -/
def LinkedEntity.requiredNumber (e : LinkedEntity) (i : Nat) : Except ShapeError Float :=
  match e.number? i with
  | some x => .ok x
  | none => .error (.missingParam e.id i)

/-- The first three numbers of a list; what is missing or no number is zero. -/
def coordinates (items : List LinkedValue) : Vec3 Float :=
  let place (i : Nat) := (items[i]?.bind (·.number?)).getD 0
  ⟨place 0, place 1, place 2⟩

/-- A point. -/
def LinkedEntity.cartesianPoint (e : LinkedEntity) : Except ShapeError (Vec3 Float) := do
  e.expectKind .cartesianPoint
  return coordinates (← e.requiredList 0)

/-- A direction, of length one. -/
def LinkedEntity.direction (e : LinkedEntity) : Except ShapeError (Vec3 Float) := do
  e.expectKind .direction
  match (coordinates (← e.requiredList 0)).normalize? 1e-12 with
  | some d => return d
  | none => throw (.geometry s!"#{e.id}: zero-length direction")

/-- A list of points; items that are no lists count for nothing. -/
def LinkedEntity.pointList (e : LinkedEntity) : Except ShapeError (List (Vec3 Float)) := do
  if e.kind ≠ .cartesianPointList2D ∧ e.kind ≠ .cartesianPointList3D then
    throw (.unexpectedKind e.id "IFCCARTESIANPOINTLIST" e.kind)
  return ((← e.requiredList 0).filterMap (·.list?)).map coordinates

/-- The right-handed frame with a third axis and, as far as possible, a first axis. -/
def frame (z hint origin : Vec3 Float) : Mat4 Float :=
  let x := match (hint - z.scale (hint.dot z)).normalize? 1e-6 with
    | some x => x
    | none =>
      let other : Vec3 Float := if Scalar.abs z.z < 0.9 then Vec3.unitZ else Vec3.unitX
      (other.cross z).normalize
  Mat4.ofFrame x (z.cross x).normalize z origin

namespace LinkedModel

/-- The entity that the parameter at a place links to. -/
def required (m : LinkedModel) (e : LinkedEntity) (i : Nat) : Except ShapeError LinkedEntity :=
  match m.follow? e i with
  | some target => .ok target
  | none => .error (.missingParam e.id i)

/-- The entities of a list of links; empty if there is no list. -/
def linkedList (m : LinkedModel) (e : LinkedEntity) (i : Nat) : List LinkedEntity :=
  m.followAll ((e.list? i).getD [])

/-- The points that the items of a list link to. -/
def linkedPoints (m : LinkedModel) (items : List LinkedValue) : Except ShapeError (List (Vec3 Float)) :=
  (m.followAll items).mapM (·.cartesianPoint)

/-- The direction that a parameter links to, if it links to anything. -/
def directionOr (m : LinkedModel) (e : LinkedEntity) (i : Nat) (default : Vec3 Float) :
    Except ShapeError (Vec3 Float) :=
  match m.follow? e i with
  | some d => d.direction
  | none => .ok default

/-- The origin of a frame, which is its first parameter. -/
def frameOrigin (m : LinkedModel) (e : LinkedEntity) : Except ShapeError (Vec3 Float) :=
  match m.follow? e 0 with
  | some p => p.cartesianPoint
  | none => .ok 0

/-- A frame in space. -/
def frame3 (m : LinkedModel) (e : LinkedEntity) : Except ShapeError (Mat4 Float) := do
  e.expectKind .axis2Placement3D
  let origin ← m.frameOrigin e
  let z ← m.directionOr e 1 Vec3.unitZ
  let x ← m.directionOr e 2 Vec3.unitX
  return frame z x origin

/-- A frame in the plane: its origin and its first axis. -/
def frame2 (m : LinkedModel) (e : LinkedEntity) : Except ShapeError (Vec2 Float × Vec3 Float) := do
  e.expectKind .axis2Placement2D
  let origin ← m.frameOrigin e
  let x ← m.directionOr e 1 Vec3.unitX
  return (origin.xy, x)

/-- The frame of a placement relative to the placement around it. -/
def relativePlacement (m : LinkedModel) (e : LinkedEntity) : Except ShapeError (Mat4 Float) :=
  match m.follow? e 1 with
  | none => .ok Mat4.identity
  | some axis =>
    match axis.kind with
    | .axis2Placement3D => m.frame3 axis
    | .axis2Placement2D => do
      let (origin, x) ← m.frame2 axis
      return frame Vec3.unitZ x ⟨origin.x, origin.y, 0⟩
    | _ => .ok Mat4.identity

/-- How many placements a chain may have. -/
def placementLimit : Nat := 100

/-- Collect the frames of a chain of placements from the current one outwards, after those collected so far. -/
def collectFrames (m : LinkedModel) (start : EntityId) (chain : Array (Mat4 Float))
    (current : Option LinkedEntity) : Except ShapeError (Array (Mat4 Float)) :=
  match current with
  | none => .ok chain
  | some e =>
    if _h : placementLimit ≤ chain.size then
      .error (.geometry s!"#{start}: placement chain deeper than {placementLimit}")
    else do
      e.expectKind .localPlacement
      let relative ← m.relativePlacement e
      m.collectFrames start (chain.push relative) (m.follow? e 0)
termination_by placementLimit - chain.size
decreasing_by
  rw [Array.size_push]
  omega

/-- The place in the world of a placement: the frames of its chain from the outermost inwards. -/
def localPlacement (m : LinkedModel) (e : LinkedEntity) : Except ShapeError (Mat4 Float) := do
  let chain ← m.collectFrames e.id #[] (some e)
  return chain.reverse.foldl (fun world frame => world * frame) Mat4.identity

end LinkedModel

end BuildingModel
