import BuildingModel.Space.Scalar
import Mathlib

/-!
# Comparison of floating-point numbers

Every floating-point number has a place in a linear order: by its class from negative to positive infinity,
then by exponent and mantissa. Comparing two numbers is comparing their places, and what is no number compares
with nothing. So comparisons can be chained as over exact numbers, and two positive numbers at one place are the
same.
-/

namespace BuildingModel

open Float.Model Float.Model.UnpackedFloat

/-- The place of a number among all numbers. -/
def floatPlace : UnpackedFloat → ℤ ×ₗ ℤ ×ₗ ℤ
  | .infinity .negative => toLex (-2, toLex (0, 0))
  | .finite .negative m e _ => toLex (-1, toLex (-e, -(m : ℤ)))
  | .notANumber => toLex (0, toLex (0, 0))
  | .zero _ => toLex (0, toLex (0, 0))
  | .finite .positive m e _ => toLex (1, toLex (e, (m : ℤ)))
  | .infinity .positive => toLex (2, toLex (0, 0))

/-- Pairs are compared by their first parts, then by their second. -/
lemma compare_toLex {β γ : Type} [Ord β] [Ord γ] (a c : β) (b d : γ) :
    compare (toLex (a, b)) (toLex (c, d)) = (compare a c).then (compare b d) := rfl

/-- Changing the signs turns a comparison round. -/
lemma compare_neg_neg (x y : ℤ) : compare (-x) (-y) = (compare x y).swap := by
  rw [← Std.OrientedOrd.eq_swap]
  simp only [Int.compare_eq_ite_lt, Int.neg_lt_neg_iff]

lemma compare_cast (m n : ℕ) : compare (m : ℤ) (n : ℤ) = compare m n := by
  simp only [Int.compare_eq_ite_lt, Nat.compare_eq_ite_lt, Int.ofNat_lt]

/-- Two numbers compare as their places do. The sign, the exponent and the mantissa are compared in this order. -/
lemma compare_eq_floatPlace {a b : UnpackedFloat} (ha : a ≠ .notANumber) (hb : b ≠ .notANumber) :
    a.compare b = some (compare (floatPlace a) (floatPlace b)) := by
  cases a with
  | notANumber => exact absurd rfl ha
  | infinity s =>
    cases b with
    | notANumber => exact absurd rfl hb
    | infinity t => cases s <;> cases t <;> rfl
    | zero t => cases s <;> rfl
    | finite t n f hn => cases s <;> cases t <;> rfl
  | zero s =>
    cases b with
    | notANumber => exact absurd rfl hb
    | infinity t => cases t <;> rfl
    | zero t => rfl
    | finite t n f hn => cases t <;> rfl
  | finite s m e hm =>
    cases b with
    | notANumber => exact absurd rfl hb
    | infinity t => cases s <;> cases t <;> rfl
    | zero t => cases s <;> rfl
    | finite t n f hn =>
      cases s <;> cases t
      · simp only [UnpackedFloat.compare, floatPlace, compare_toLex, compare_neg_neg, compare_cast,
          Ordering.swap_then]
        rfl
      · rfl
      · rfl
      · simp only [UnpackedFloat.compare, floatPlace, compare_toLex, compare_cast]
        rfl

/-- Nothing compares with what is no number. -/
lemma compare_notANumber_right (a : UnpackedFloat) : a.compare .notANumber = none := by
  cases a <;> rfl

/-- At most as great is to have no place behind. -/
lemma unpacked_le_iff {a b : UnpackedFloat} :
    a.le b = true ↔ a ≠ .notANumber ∧ b ≠ .notANumber ∧ floatPlace a ≤ floatPlace b := by
  rw [UnpackedFloat.le]
  by_cases ha : a = .notANumber
  · subst ha
    simp [UnpackedFloat.compare]
  · by_cases hb : b = .notANumber
    · subst hb
      simp [compare_notANumber_right]
    · rw [compare_eq_floatPlace ha hb, Option.any_some, Ordering.isLE_iff_ne_gt, ← ne_eq,
        compare_le_iff_le]
      simp [ha, hb]

/-- Less is to have a place before. -/
lemma unpacked_lt_iff {a b : UnpackedFloat} :
    a.lt b = true ↔ a ≠ .notANumber ∧ b ≠ .notANumber ∧ floatPlace a < floatPlace b := by
  rw [UnpackedFloat.lt]
  by_cases ha : a = .notANumber
  · subst ha
    simp [UnpackedFloat.compare]
  · by_cases hb : b = .notANumber
    · subst hb
      simp [compare_notANumber_right]
    · rw [compare_eq_floatPlace ha hb, beq_iff_eq, Option.some_inj, compare_lt_iff_lt]
      simp [ha, hb]

/-- Equal is to have the same place. -/
lemma unpacked_beq_iff {a b : UnpackedFloat} :
    a.beq b = true ↔ a ≠ .notANumber ∧ b ≠ .notANumber ∧ floatPlace a = floatPlace b := by
  rw [UnpackedFloat.beq]
  by_cases ha : a = .notANumber
  · subst ha
    simp [UnpackedFloat.compare]
  · by_cases hb : b = .notANumber
    · subst hb
      simp [compare_notANumber_right]
    · rw [compare_eq_floatPlace ha hb, beq_iff_eq, Option.some_inj, compare_eq_iff_eq]
      simp [ha, hb]

/-- Positive numbers at one place are equal. -/
lemma eq_of_floatPlace_eq {a b : UnpackedFloat} (ha : floatPlace (.zero .positive) < floatPlace a)
    (hab : floatPlace a = floatPlace b) : a = b := by
  cases a with
  | notANumber | zero _ => exact absurd ha (lt_irrefl _)
  | infinity s =>
    cases s with
    | negative => exact absurd ha (by decide)
    | positive =>
      cases b with
      | notANumber | zero _ => simp [floatPlace] at hab
      | infinity t => cases t <;> simp [floatPlace] at hab ⊢
      | finite t n f hn => cases t <;> simp [floatPlace] at hab
  | finite s m e hm =>
    cases s with
    | negative => simp [floatPlace, Prod.Lex.toLex_lt_toLex] at ha
    | positive =>
      cases b with
      | notANumber | zero _ => simp [floatPlace] at hab
      | infinity t => cases t <;> simp [floatPlace] at hab
      | finite t n f hn =>
        cases t with
        | negative => simp [floatPlace] at hab
        | positive =>
          simp only [floatPlace, EmbeddingLike.apply_eq_iff_eq, Prod.mk.injEq, Nat.cast_inj, true_and] at hab
          simp [hab]

namespace Single

variable {x y z : Float32}

/-- Comparison of 32-bit numbers is that of what they are unpacked to. -/
lemma le_iff : x ≤ y ↔ x.toModel.unpack.le y.toModel.unpack = true := by
  change x.le y = true ↔ _
  rw [Float32.le, decide_eq_true_eq]
  exact Iff.rfl

lemma lt_iff : x < y ↔ x.toModel.unpack.lt y.toModel.unpack = true := by
  change x.lt y = true ↔ _
  rw [Float32.lt, decide_eq_true_eq]
  exact Iff.rfl

/-- A weak and a strict step make a strict one. -/
lemma lt_of_le_of_lt (h : x ≤ y) (h' : y < z) : x < z := by
  rw [le_iff, unpacked_le_iff] at h
  rw [lt_iff, unpacked_lt_iff] at h' ⊢
  exact ⟨h.1, h'.2.1, h.2.2.trans_lt h'.2.2⟩

/-- A strict and a weak step make a strict one. -/
lemma lt_of_lt_of_le (h : x < y) (h' : y ≤ z) : x < z := by
  rw [lt_iff, unpacked_lt_iff] at h
  rw [le_iff, unpacked_le_iff] at h'
  rw [lt_iff, unpacked_lt_iff]
  exact ⟨h.1, h'.2.1, h.2.2.trans_le h'.2.2⟩

lemma lt_trans (h : x < y) (h' : y < z) : x < z := by
  rw [lt_iff, unpacked_lt_iff] at h h' ⊢
  exact ⟨h.1, h'.2.1, h.2.2.trans h'.2.2⟩

lemma lt_irrefl (x : Float32) : ¬ x < x := by
  rw [lt_iff, unpacked_lt_iff]
  exact fun h => h.2.2.false

lemma le_trans (h : x ≤ y) (h' : y ≤ z) : x ≤ z := by
  rw [le_iff, unpacked_le_iff] at h h' ⊢
  exact ⟨h.1, h'.2.1, h.2.2.trans h'.2.2⟩

/-- A number is unpacked to a number. -/
lemma unpack_ne_notANumber (hx : x.isNaN = false) : x.toModel.unpack ≠ .notANumber := by
  intro h
  have hnan : x.toModel.unpack.isNaN = false := hx
  rw [h] at hnan
  exact Bool.noConfusion hnan

/-- What is unpacked to a number is one. -/
lemma isNaN_of_ne (hx : x.toModel.unpack ≠ .notANumber) : x.isNaN = false := by
  change x.toModel.unpack.isNaN = false
  cases h : x.toModel.unpack with
  | notANumber => exact absurd h hx
  | infinity s | zero s | finite s m e hm => rfl

/-- What is finite is a number. -/
lemma isNaN_of_isFinite (hx : x.isFinite = true) : x.isNaN = false := by
  apply isNaN_of_ne
  intro h
  have hfinite : x.toModel.unpack.isFinite = true := hx
  rw [h] at hfinite
  exact Bool.noConfusion hfinite

/-- What is compared are numbers. -/
lemma isNaN_of_le (h : x ≤ y) : x.isNaN = false ∧ y.isNaN = false := by
  rw [le_iff, unpacked_le_iff] at h
  exact ⟨isNaN_of_ne h.1, isNaN_of_ne h.2.1⟩

/-- Of two numbers, one is less or the other is at most as great. -/
lemma not_lt (hx : x.isNaN = false) (hy : y.isNaN = false) : ¬ x < y ↔ y ≤ x := by
  have hx' := unpack_ne_notANumber hx
  have hy' := unpack_ne_notANumber hy
  rw [lt_iff, unpacked_lt_iff, le_iff, unpacked_le_iff]
  simp only [ne_eq, hx', hy', not_false_eq_true, true_and]
  exact Std.not_lt

/-- A number is at most as great as itself. -/
lemma le_refl (hx : x.isNaN = false) : x ≤ x := (not_lt hx hx).mp (lt_irrefl x)

/-- What is less is at most as great. -/
lemma le_of_lt (h : x < y) : x ≤ y := by
  rw [lt_iff, unpacked_lt_iff] at h
  rw [le_iff, unpacked_le_iff]
  exact ⟨h.1, h.2.1, h.2.2.le⟩

/-- Numbers with the same sign, mantissa and exponent are the same. -/
lemma eq_of_unpack_eq (h : x.toModel.unpack = y.toModel.unpack) : x = y := by
  obtain ⟨⟨⟨b⟩, hb⟩⟩ := x
  obtain ⟨⟨⟨c⟩, hc⟩⟩ := y
  have hbits : b = c := (unpack_inj_of_valid hb hc).mp h
  subst hbits
  rfl

lemma unpack_zero : (0 : Float32).toModel.unpack = .zero .positive :=
  (unpack_eq_zero_iff_of_valid (0 : Float32).toModel.valid).mpr (by decide +kernel)

/-- Of two positive numbers one is less than the other, or they are the same. -/
lemma lt_or_eq_or_lt_of_pos (hx : 0 < x) (hy : 0 < y) : x < y ∨ x = y ∨ y < x := by
  rw [lt_iff, unpacked_lt_iff, unpack_zero] at hx hy
  simp only [lt_iff, unpacked_lt_iff]
  rcases lt_trichotomy (floatPlace x.toModel.unpack) (floatPlace y.toModel.unpack) with h | h | h
  · exact .inl ⟨hx.2.1, hy.2.1, h⟩
  · exact .inr (.inl (eq_of_unpack_eq (eq_of_floatPlace_eq hx.2.2 h)))
  · exact .inr (.inr ⟨hy.2.1, hx.2.1, h⟩)

end Single

namespace Double

variable {x y : Float}

/-- Comparison of 64-bit numbers is that of what they are unpacked to. -/
lemma le_iff : x ≤ y ↔ x.toModel.unpack.le y.toModel.unpack = true := by
  change x.le y = true ↔ _
  rw [Float.le, decide_eq_true_eq]
  exact Iff.rfl

lemma lt_iff : x < y ↔ x.toModel.unpack.lt y.toModel.unpack = true := by
  change x.lt y = true ↔ _
  rw [Float.lt, decide_eq_true_eq]
  exact Iff.rfl

/-- What is greater is not at most as great. -/
lemma not_le_of_lt (h : x < y) : ¬ y ≤ x := by
  rw [lt_iff, unpacked_lt_iff] at h
  rw [le_iff, unpacked_le_iff]
  exact fun h' => h'.2.2.not_gt h.2.2

/-- Equality of 64-bit numbers is that of what they are unpacked to. -/
lemma beq_iff : (x == y) = true ↔ x.toModel.unpack.beq y.toModel.unpack = true := Iff.rfl

/-- What equals one of two equal numbers equals the other one. -/
lemma beq_congr (h : (x == y) = true) (z : Float) : (z == x) = (z == y) := by
  rw [beq_iff, unpacked_beq_iff] at h
  obtain ⟨hx, hy, hxy⟩ := h
  rw [Bool.eq_iff_iff, beq_iff, beq_iff, unpacked_beq_iff, unpacked_beq_iff, hxy]
  simp only [ne_eq, hx, hy, not_false_eq_true, true_and]

end Double

end BuildingModel
