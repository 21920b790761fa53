import BuildingModel.Space.Scalar

/-!
# Points and vectors
-/

namespace BuildingModel

/-- A point or vector of the plane. -/
structure Vec2 (α : Type) where
  x : α
  y : α
deriving DecidableEq, Repr, Inhabited

/-- A point or vector of space. -/
structure Vec3 (α : Type) where
  x : α
  y : α
  z : α
deriving DecidableEq, Repr, Inhabited

/-- A point or vector in homogeneous coordinates. -/
structure Vec4 (α : Type) where
  x : α
  y : α
  z : α
  w : α
deriving DecidableEq, Repr, Inhabited

variable {α : Type} [Scalar α]

namespace Vec2

instance : Add (Vec2 α) := ⟨fun a b => ⟨a.x + b.x, a.y + b.y⟩⟩
instance : Sub (Vec2 α) := ⟨fun a b => ⟨a.x - b.x, a.y - b.y⟩⟩

/-- Whether two points have the same coordinates. -/
def same (a b : Vec2 α) : Bool := a.x == b.x && a.y == b.y

/-- The length of a vector. -/
def norm (a : Vec2 α) : α := Scalar.sqrt (a.x * a.x + a.y * a.y)

end Vec2

namespace Vec3

instance : Add (Vec3 α) := ⟨fun a b => ⟨a.x + b.x, a.y + b.y, a.z + b.z⟩⟩
instance : Sub (Vec3 α) := ⟨fun a b => ⟨a.x - b.x, a.y - b.y, a.z - b.z⟩⟩
instance : Neg (Vec3 α) := ⟨fun a => ⟨-a.x, -a.y, -a.z⟩⟩
instance : Zero (Vec3 α) := ⟨⟨0, 0, 0⟩⟩

/-- The axes. -/
def unitX : Vec3 α := ⟨1, 0, 0⟩
def unitY : Vec3 α := ⟨0, 1, 0⟩
def unitZ : Vec3 α := ⟨0, 0, 1⟩

/-- Whether two points have the same coordinates. -/
def same (a b : Vec3 α) : Bool := a.x == b.x && a.y == b.y && a.z == b.z

/-- A multiple of a vector. -/
def scale (a : Vec3 α) (k : α) : Vec3 α := ⟨a.x * k, a.y * k, a.z * k⟩

/-- A vector divided by a number. -/
def divideBy (a : Vec3 α) (k : α) : Vec3 α := ⟨a.x / k, a.y / k, a.z / k⟩

/-- The inner product. -/
def dot (a b : Vec3 α) : α := a.x * b.x + a.y * b.y + a.z * b.z

/-- The vector product. -/
def cross (a b : Vec3 α) : Vec3 α :=
  ⟨a.y * b.z - a.z * b.y, a.z * b.x - a.x * b.z, a.x * b.y - a.y * b.x⟩

/-- The length of a vector. -/
def norm (a : Vec3 α) : α := Scalar.sqrt (a.dot a)

/-- The vector of length one in the same direction, unless the vector is at most `least` long. -/
def normalize? (a : Vec3 α) (least : α) : Option (Vec3 α) :=
  let n := a.norm
  if n ≤ least then none else some (a.divideBy n)

/-- The vector of length one in the same direction. -/
def normalize (a : Vec3 α) : Vec3 α := a.divideBy a.norm

/-- The first two coordinates. -/
def xy (a : Vec3 α) : Vec2 α := ⟨a.x, a.y⟩

/-- Apply a function to each coordinate. -/
def map {β : Type} (f : α → β) (a : Vec3 α) : Vec3 β := ⟨f a.x, f a.y, f a.z⟩

/-- The coordinates in order. -/
def toList (a : Vec3 α) : List α := [a.x, a.y, a.z]

end Vec3

namespace Vec4

instance : Add (Vec4 α) := ⟨fun a b => ⟨a.x + b.x, a.y + b.y, a.z + b.z, a.w + b.w⟩⟩
instance : Sub (Vec4 α) := ⟨fun a b => ⟨a.x - b.x, a.y - b.y, a.z - b.z, a.w - b.w⟩⟩

/-- A multiple of a vector. -/
def scale (a : Vec4 α) (k : α) : Vec4 α := ⟨a.x * k, a.y * k, a.z * k, a.w * k⟩

/-- The first three coordinates. -/
def xyz (a : Vec4 α) : Vec3 α := ⟨a.x, a.y, a.z⟩

/-- Apply a function to each coordinate. -/
def map {β : Type} (f : α → β) (a : Vec4 α) : Vec4 β := ⟨f a.x, f a.y, f a.z, f a.w⟩

/-- The coordinates in order. -/
def toList (a : Vec4 α) : List α := [a.x, a.y, a.z, a.w]

end Vec4

/-- Rounded to single precision. A zero keeps its sign. -/
def Scalar.toSingle (x : Float) : Float32 :=
  if x == 0 then (if x.toBits == 0 then 0 else -0) else x.toFloat32

/-- The same number in double precision. A zero keeps its sign. -/
def Scalar.toDouble (x : Float32) : Float :=
  if x == 0 then (if x.toBits == 0 then 0 else -0) else x.toFloat

/-- Rounded to single precision. -/
def Vec3.toSingle (a : Vec3 Float) : Vec3 Float32 := a.map Scalar.toSingle

/-- The same point in double precision. -/
def Vec3.toDouble (a : Vec3 Float32) : Vec3 Float := a.map Scalar.toDouble

end BuildingModel
