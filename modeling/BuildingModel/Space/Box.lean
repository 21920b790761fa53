import BuildingModel.Space.Matrix

/-!
# Boxes

Boxes along the axes. A box whose least corner is past its greatest on some axis is empty.
-/

namespace BuildingModel

open Scalar

/-- A box along the axes. -/
structure Box (α : Type) where
  min : Vec3 α
  max : Vec3 α
deriving DecidableEq, Repr, Inhabited

namespace Box

variable {α : Type} [Scalar α]

/-- The box that contains nothing. Taking a point in gives the box of that point. -/
def empty : Box α := ⟨⟨largest, largest, largest⟩, ⟨-largest, -largest, -largest⟩⟩

/-- Whether a box contains nothing. -/
def isEmpty (b : Box α) : Bool := b.max.x < b.min.x || b.max.y < b.min.y || b.max.z < b.min.z

/-- The least box that contains a box and a point. -/
def expand (b : Box α) (p : Vec3 α) : Box α where
  min := ⟨least b.min.x p.x, least b.min.y p.y, least b.min.z p.z⟩
  max := ⟨greatest b.max.x p.x, greatest b.max.y p.y, greatest b.max.z p.z⟩

/-- The least box that contains some points. -/
def ofPoints (ps : List (Vec3 α)) : Box α := ps.foldl expand empty

/-- The least box that contains two boxes. -/
def union (b c : Box α) : Box α := if c.isEmpty then b else (b.expand c.min).expand c.max

/-- The middle of a box. -/
def center (b : Box α) : Vec3 α := (b.min + b.max).scale 0.5

/-- The extent of a box along the axes. -/
def size (b : Box α) : Vec3 α := if b.isEmpty then 0 else b.max - b.min

/-- The greatest extent along an axis. -/
def extent (b : Box α) : α :=
  let s := b.size
  greatest (greatest s.x s.y) s.z

/-- The distance between opposite corners. -/
def diagonal (b : Box α) : α := b.size.norm

/-- The eight corners; the first axis changes fastest. -/
def corners (b : Box α) : List (Vec3 α) :=
  [⟨b.min.x, b.min.y, b.min.z⟩, ⟨b.max.x, b.min.y, b.min.z⟩,
    ⟨b.min.x, b.max.y, b.min.z⟩, ⟨b.max.x, b.max.y, b.min.z⟩,
    ⟨b.min.x, b.min.y, b.max.z⟩, ⟨b.max.x, b.min.y, b.max.z⟩,
    ⟨b.min.x, b.max.y, b.max.z⟩, ⟨b.max.x, b.max.y, b.max.z⟩]

/-- The box of the transformed corners. -/
def transformed (b : Box α) (m : Mat4 α) : Box α :=
  if b.isEmpty then b else ofPoints (b.corners.map m.transformPoint)

/-- Whether a point lies in a box. -/
def contains (b : Box α) (p : Vec3 α) : Bool :=
  b.min.x ≤ p.x && p.x ≤ b.max.x && b.min.y ≤ p.y && p.y ≤ b.max.y && b.min.z ≤ p.z && p.z ≤ b.max.z

/-- How far a coordinate lies outside an interval. -/
def outside (low high x : α) : α := greatest (greatest (low - x) 0) (x - high)

/-- The distance from a point to the nearest point of a box. -/
def distanceTo (b : Box α) (p : Vec3 α) : α :=
  if b.isEmpty then infinity
  else
    let dx := outside b.min.x b.max.x p.x
    let dy := outside b.min.y b.max.y p.y
    let dz := outside b.min.z b.max.z p.z
    sqrt (dx * dx + dy * dy + dz * dz)

/-- The part of a ray, from one parameter to another, that lies between the two planes of a box across
one axis. -/
def slab (low high origin direction : α) (span : α × α) : Option (α × α) :=
  if abs direction < epsilon then
    if origin < low || high < origin then none else some span
  else
    let inverse := 1 / direction
    let t0 := (low - origin) * inverse
    let t1 := (high - origin) * inverse
    let (near, far) := if t1 < t0 then (t1, t0) else (t0, t1)
    let first := greatest span.1 near
    let last := least span.2 far
    if last < first then none else some (first, last)

/-- Where a ray enters a box: zero if it starts inside. -/
def rayEntry? (b : Box α) (origin direction : Vec3 α) : Option α := do
  if b.isEmpty then none
  let span ← slab b.min.x b.max.x origin.x direction.x (0, infinity)
  let span ← slab b.min.y b.max.y origin.y direction.y span
  let span ← slab b.min.z b.max.z origin.z direction.z span
  return span.1

end Box

end BuildingModel
