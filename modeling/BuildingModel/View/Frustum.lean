import BuildingModel.Space.Box

/-!
# Frustum

The part of space that a picture shows, as six planes. A box is thrown out only if it lies on the far
side of one of them.
-/

namespace BuildingModel

/-- A side of the frustum: a point is inside if its signed distance is not negative. -/
structure Plane (α : Type) where
  normal : Vec3 α
  offset : α
deriving DecidableEq, Repr, Inhabited

namespace Plane

variable {α : Type} [Scalar α]

/-- The plane with given coefficients. One without direction has everything inside. -/
def ofRow (row : Vec4 α) : Plane α :=
  let length := row.xyz.norm
  if Scalar.epsilon < length then ⟨row.xyz.divideBy length, row.w / length⟩ else ⟨0, 0⟩

/-- How far inside a point lies. -/
def signedDistance (p : Plane α) (q : Vec3 α) : α := p.normal.dot q + p.offset

/-- The corner of a box that lies farthest inside. -/
def innermost (p : Plane α) (b : Box α) : Vec3 α :=
  ⟨if 0 ≤ p.normal.x then b.max.x else b.min.x,
    if 0 ≤ p.normal.y then b.max.y else b.min.y,
    if 0 ≤ p.normal.z then b.max.z else b.min.z⟩

end Plane

/-- The part of space that is inside all of some planes. -/
structure Frustum (α : Type) where
  planes : List (Plane α)

namespace Frustum

variable {α : Type} [Scalar α]

/-- What a transformation brings into the cube of the picture. -/
def ofViewProjection (m : Mat4 α) : Frustum α :=
  let ⟨r0, r1, r2, r3⟩ := m.transpose
  ⟨[r3 + r0, r3 - r0, r3 + r1, r3 - r1, r3 + r2, r3 - r2].map Plane.ofRow⟩

/-- Whether a box may be in view. -/
def intersects (f : Frustum α) (b : Box α) : Bool :=
  !b.isEmpty && f.planes.all fun p => 0 ≤ p.signedDistance (p.innermost b)

/-- Whether a point is in view. -/
def contains (f : Frustum α) (q : Vec3 α) : Bool := f.planes.all fun p => 0 ≤ p.signedDistance q

end Frustum

end BuildingModel
