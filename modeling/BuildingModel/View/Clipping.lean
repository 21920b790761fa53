import BuildingModel.Space.Box

/-!
# Clipping

Planes that cut parts of the model away, and boxes outside of which everything is cut away.
-/

namespace BuildingModel

/-- A plane that cuts away what lies behind it. -/
structure ClippingPlane (α : Type) where
  /-- Towards what is kept. -/
  normal : Vec3 α
  /-- How far the plane lies along the normal. -/
  distance : α
  enabled : Bool
  /-- Keep the other side. -/
  flip : Bool
deriving DecidableEq, Repr, Inhabited

namespace ClippingPlane

variable {α : Type} [Scalar α]

/-- The plane across a direction of length one. -/
def across (normal : Vec3 α) (distance : α) : ClippingPlane α := ⟨normal, distance, true, false⟩

/-- The plane through a point across a direction, unless that is too short. -/
def through? (point normal : Vec3 α) : Option (ClippingPlane α) :=
  (normal.normalize? 1e-7).map fun n => across n (n.dot point)

/-- How far a point lies on the kept side. -/
def signedDistance (c : ClippingPlane α) (p : Vec3 α) : α :=
  let d := c.normal.dot p - c.distance
  if c.flip then -d else d

/-- Whether a point is cut away. -/
def clipsPoint (c : ClippingPlane α) (p : Vec3 α) : Bool := c.enabled && c.signedDistance p < 0

/-- Whether all corners of a box are cut away. -/
def clipsBox (c : ClippingPlane α) (b : Box α) : Bool :=
  c.enabled && !b.isEmpty && b.corners.all fun p => c.signedDistance p < 0

/-- Whether a box has corners on both sides. -/
def cutsBox (c : ClippingPlane α) (b : Box α) : Bool :=
  c.enabled && !b.isEmpty && (b.corners.any fun p => 0 ≤ c.signedDistance p) &&
    b.corners.any fun p => c.signedDistance p ≤ 0

end ClippingPlane

/-- Some clipping planes, in order. -/
structure ClippingPlanes (α : Type) where
  planes : List (ClippingPlane α)
deriving DecidableEq, Repr, Inhabited

namespace ClippingPlanes

variable {α : Type} [Scalar α]

/-- No planes. -/
def empty : ClippingPlanes α := ⟨[]⟩

/-- Add a plane at the end. -/
def add (s : ClippingPlanes α) (c : ClippingPlane α) : ClippingPlanes α := ⟨s.planes ++ [c]⟩

/-- The plane at a place. -/
def get? (s : ClippingPlanes α) (i : Nat) : Option (ClippingPlane α) := s.planes[i]?

/-- Take out the plane at a place. -/
def remove (s : ClippingPlanes α) (i : Nat) : ClippingPlanes α := ⟨s.planes.eraseIdx i⟩

/-- Change the plane at a place. -/
def modify (s : ClippingPlanes α) (i : Nat) (f : ClippingPlane α → ClippingPlane α) : ClippingPlanes α :=
  ⟨s.planes.modify i f⟩

/-- Enable or disable all planes. -/
def setAllEnabled (s : ClippingPlanes α) (enabled : Bool) : ClippingPlanes α :=
  ⟨s.planes.map fun c => { c with enabled }⟩

/-- The planes that are enabled. -/
def enabled (s : ClippingPlanes α) : List (ClippingPlane α) := s.planes.filter (·.enabled)

/-- Whether some plane is enabled. -/
def isActive (s : ClippingPlanes α) : Bool := s.planes.any (·.enabled)

/-- Whether some plane cuts a point away. -/
def clipsPoint (s : ClippingPlanes α) (p : Vec3 α) : Bool := s.planes.any (·.clipsPoint p)

/-- Whether some plane cuts a whole box away. -/
def clipsBox (s : ClippingPlanes α) (b : Box α) : Bool := s.planes.any (·.clipsBox b)

/-- Whether some plane goes through a box. -/
def cutsBox (s : ClippingPlanes α) (b : Box α) : Bool := s.planes.any (·.cutsBox b)

end ClippingPlanes

/-- A box outside of which everything is cut away. -/
structure SectionBox (α : Type) where
  bounds : Box α
  enabled : Bool

namespace SectionBox

variable {α : Type} [Scalar α]

/-- The sides of the box, facing inwards; none if the box is disabled. -/
def toPlanes (s : SectionBox α) : ClippingPlanes α :=
  let side (normal : Vec3 α) (low high : α) : List (ClippingPlane α) :=
    [.across normal low, .across (-normal) (-high)]
  let ⟨min, max⟩ := s.bounds
  if s.enabled then
    ⟨side Vec3.unitX min.x max.x ++ side Vec3.unitY min.y max.y ++ side Vec3.unitZ min.z max.z⟩
  else .empty

/-- Whether a point is kept. -/
def contains (s : SectionBox α) (p : Vec3 α) : Bool := !s.enabled || s.bounds.contains p

end SectionBox

end BuildingModel
