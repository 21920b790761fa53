/-!
# Scalars

The arithmetic of coordinates. Shapes and views are written over any scalars, so that the same
definitions run on floating-point numbers and can be studied over exact ones. The order of the
operations is part of the definitions, since floating-point addition is not associative.
-/

namespace BuildingModel

/-- Numbers to compute coordinates with. -/
class Scalar (α : Type) extends Zero α, One α, Add α, Sub α, Neg α, Mul α, Div α, LT α, LE α, BEq α,
    OfScientific α where
  decLt : DecidableLT α
  decLe : DecidableLE α
  sqrt : α → α
  isFinite : α → Bool
  /-- The whole part of a number toward zero, if it fits 64 bits with sign. -/
  truncate? : α → Option Int64
  /-- Greater than or equal to every number that can be a coordinate. -/
  largest : α
  /-- Greater than every distance. -/
  infinity : α
  /-- The step from one to the next greater number. -/
  epsilon : α

namespace Scalar

variable {α : Type} [Scalar α]

instance : DecidableLT α := decLt
instance : DecidableLE α := decLe

/-- The size of a number without its sign. -/
def abs (x : α) : α := if x < 0 then -x else x

/-- The lesser of two numbers; of a number and something that is none, the number. -/
def least (x y : α) : α := if y < x then y else if x == x then x else y

/-- The greater of two numbers; of a number and something that is none, the number. -/
def greatest (x y : α) : α := if x < y then y else if x == x then x else y

/-- The nearest number between two bounds. -/
def clamp (low high x : α) : α := if x < low then low else if high < x then high else x

/-- One with the sign of a number that is not zero. -/
def signOf (x : α) : α := if x == x then if x < 0 then -1 else 1 else x

end Scalar

instance : Scalar Float where
  zero := 0
  one := 1
  decLt := inferInstance
  decLe := inferInstance
  sqrt := Float.sqrt
  isFinite := Float.isFinite
  truncate? x :=
    if -9223372036854775808.0 ≤ x ∧ x < 9223372036854775808.0 then some x.toInt64 else none
  largest := 1.7976931348623157e308
  infinity := 1.0 / 0.0
  epsilon := 2.220446049250313e-16

instance : Scalar Float32 where
  zero := 0
  one := 1
  decLt := inferInstance
  decLe := inferInstance
  sqrt := Float32.sqrt
  isFinite := Float32.isFinite
  truncate? x :=
    if -9223372036854775808.0 ≤ x ∧ x < 9223372036854775808.0 then some x.toInt64 else none
  largest := 3.4028234663852886e38
  infinity := 1.0 / 0.0
  epsilon := 1.1920929e-7

end BuildingModel
