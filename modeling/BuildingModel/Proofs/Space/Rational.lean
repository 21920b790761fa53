import BuildingModel.Proofs.Space.Ordered
import BuildingModel.Space.Stored
import Mathlib

/-!
# Exact coordinates

Rational numbers as scalars. Sums, products and comparisons are exact; roots are exact where they are
rational. There is no greatest rational number, so the bounds on coordinates are those of single
precision, and a coordinate is stored as a multiple of a fixed small number.
-/

namespace BuildingModel

/-- The whole part of a rational number toward zero. -/
def wholePart (q : ℚ) : ℤ := if q < 0 then ⌈q⌉ else ⌊q⌋

instance : Scalar ℚ where
  decLt := inferInstance
  decLe := inferInstance
  sqrt := Rat.sqrt
  isFinite _ := true
  truncate? q :=
    let n := wholePart q
    if Int64.minValue.toInt ≤ n ∧ n ≤ Int64.maxValue.toInt then some (Int64.ofInt n) else none
  largest := 340282346638528859811704183484516925440
  infinity := 340282366920938463463374607431768211456
  epsilon := 1 / 8388608

instance : Stored ℚ where
  bits q := (Int32.ofInt ⌊q * 65536⌋).toUInt32
  gridIndex q := Int32.ofInt (max Int32.minValue.toInt (min ⌊q⌋ Int32.maxValue.toInt))
  Sum := Vec3 ℚ
  noSum := 0
  addTo sum v := sum + v
  mean sum count := sum.divideBy count.toNat
  direction sum := (sum.normalize? (1 / 1000000000000)).getD Vec3.unitZ

instance : OrderedScalar ℚ where
  le_total := le_total
  le_trans := le_trans
  lt_iff_not_le := not_le.symm
  beq_self q := beq_self_eq_true q
  add_le_add := add_le_add
  sub_le_sub_right := sub_le_sub_right
  neg_le_neg := neg_le_neg
  mul_le_mul_left hk h := mul_le_mul_of_nonneg_left h hk
  mul_le_mul_left_of_nonpos hk h := mul_le_mul_of_nonpos_left h hk
  zero_form_add_one x y z := by simp
  div_one := div_one

end BuildingModel
