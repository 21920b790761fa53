import BuildingModel.Proofs.Number.Comparison
import BuildingModel.Space.Matrix
import Mathlib

/-!
# The sign of zero

Both zeros are the same coordinate. A sum or a product changes at most the sign of a zero when the signs of zeros
among its arguments change, and so does a quotient when the sign of a zero divided changes. Hence the image of a
position under a transformation is a position.
-/

namespace BuildingModel

open Float.Model Float.Model.UnpackedFloat

/-- Equal but for the sign of zero. -/
def ZeroAlike (u v : UnpackedFloat) : Prop := u = v ∨ ∃ s t, u = .zero s ∧ v = .zero t

namespace ZeroAlike

variable {u v w : UnpackedFloat} {spec : Format}

/-- Zeros are equal but for their signs. -/
lemma zeros (s t : Sign) : ZeroAlike (.zero s) (.zero t) := .inr ⟨s, t, rfl, rfl⟩

lemma trans (h : ZeroAlike u v) (h' : ZeroAlike v w) : ZeroAlike u w := by
  rcases h with rfl | ⟨s, t, rfl, rfl⟩
  · exact h'
  · rcases h' with rfl | ⟨s', t', -, rfl⟩
    · exact zeros s t
    · exact zeros s t'

/-- The sign of a zero shows in a sum only if the sum is a zero. -/
lemma add_zero (s t : Sign) (u : UnpackedFloat) :
    ZeroAlike (UnpackedFloat.add spec (.zero s) u) (UnpackedFloat.add spec (.zero t) u) := by
  cases u with
  | notANumber | infinity _ | finite _ _ _ _ => exact .inl rfl
  | zero r => cases r <;> cases s <;> cases t <;> exact zeros _ _

/-- Addition commutes. -/
lemma add_comm (u v : UnpackedFloat) : UnpackedFloat.add spec u v = UnpackedFloat.add spec v u := by
  cases u with
  | notANumber => cases v <;> rfl
  | infinity s =>
    cases v with
    | infinity t => cases s <;> cases t <;> rfl
    | notANumber | zero _ | finite _ _ _ _ => rfl
  | zero s =>
    cases v with
    | zero t => cases s <;> cases t <;> rfl
    | notANumber | infinity _ | finite _ _ _ _ => rfl
  | finite s m e hm =>
    cases v with
    | finite t n f hn => simp only [UnpackedFloat.add, min_comm, Int.add_comm]
    | notANumber | infinity _ | zero _ => rfl

/-- The sign of a zero shows in a product only as the sign of the zero that it gives. -/
lemma mul_zero (u : UnpackedFloat) (s t : Sign) :
    ZeroAlike (UnpackedFloat.mul spec u (.zero s)) (UnpackedFloat.mul spec u (.zero t)) := by
  cases u with
  | notANumber | infinity _ => exact .inl rfl
  | zero r | finite r _ _ _ => exact zeros _ _

/-- The sign of a zero shows in a quotient only as the sign of the zero that it gives. -/
lemma zero_div (s t : Sign) (u : UnpackedFloat) :
    ZeroAlike (UnpackedFloat.div spec (.zero s) u) (UnpackedFloat.div spec (.zero t) u) := by
  cases u with
  | notANumber | zero _ => exact .inl rfl
  | infinity r | finite r _ _ _ => exact zeros _ _

end ZeroAlike

namespace Scalar

/-- A coordinate without the sign of zero. -/
def unsigned {α : Type} [Scalar α] (x : α) : α := if x == 0 then 0 else x

/-- There is no sign left to drop. -/
lemma unsigned_unsigned {α : Type} [Scalar α] (x : α) : unsigned (unsigned x) = unsigned x := by
  unfold unsigned
  split
  · exact ite_self 0
  · rfl

/-- Two coordinates differ at most in the sign of zero if they are equal or both zero. -/
lemma unsigned_eq_iff_of_zero {α : Type} [Scalar α] (hzero : ((0 : α) == 0) = true) {x y : α} :
    unsigned x = unsigned y ↔ x = y ∨ (x == 0) = true ∧ (y == 0) = true := by
  unfold unsigned
  by_cases hx : (x == 0) = true
  · by_cases hy : (y == 0) = true
    · simp only [hx, hy, if_true, and_self, or_true]
    · rw [if_pos hx, if_neg hy]
      constructor
      · rintro rfl
        exact absurd hzero hy
      · rintro (rfl | ⟨-, h⟩)
        · exact absurd hx hy
        · exact absurd h hy
  · by_cases hy : (y == 0) = true
    · rw [if_neg hx, if_pos hy]
      constructor
      · rintro rfl
        exact absurd hzero hx
      · rintro (rfl | ⟨h, -⟩)
        · exact absurd hy hx
        · exact absurd h hx
    · simp only [hx, hy, if_false, and_self, or_false, Bool.false_eq_true]

lemma zero_beq_zero : ((0 : Float) == 0) = true := by decide +kernel

lemma single_zero_beq_zero : ((0 : Float32) == 0) = true := by decide +kernel

variable {x x' y y' : Float}

/-- Numbers with the same sign, mantissa and exponent are the same. -/
lemma eq_of_unpack_eq (h : x.toModel.unpack = y.toModel.unpack) : x = y := by
  obtain ⟨⟨⟨b⟩, hb⟩⟩ := x
  obtain ⟨⟨⟨c⟩, hc⟩⟩ := y
  have hbits : b = c := (unpack_inj_of_valid hb hc).mp h
  subst hbits
  rfl

lemma unpack_zero : (0 : Float).toModel.unpack = .zero .positive :=
  (unpack_eq_zero_iff_of_valid (0 : Float).toModel.valid).mpr (by decide +kernel)

/-- What equals zero is a zero of either sign. -/
lemma beq_zero_iff : (x == 0) = true ↔ ∃ s, x.toModel.unpack = .zero s := by
  change UnpackedFloat.beq x.toModel.unpack (0 : Float).toModel.unpack = true ↔ _
  rw [beq_iff_ne_notANumber_and_eq, unpack_zero]
  constructor
  · rintro ⟨-, -, h | ⟨h, -⟩ | ⟨h, -⟩⟩
    · exact ⟨_, h⟩
    · exact ⟨_, h⟩
    · exact ⟨_, h⟩
  · rintro ⟨s, hs⟩
    rw [hs]
    cases s <;> simp

/-- Two numbers are the same without the sign of zero exactly if they are equal but for it. -/
lemma unsigned_eq_iff : unsigned x = unsigned y ↔ ZeroAlike x.toModel.unpack y.toModel.unpack := by
  rw [unsigned_eq_iff_of_zero zero_beq_zero, beq_zero_iff, beq_zero_iff]
  constructor
  · rintro (rfl | ⟨⟨s, hs⟩, t, ht⟩)
    · exact .inl rfl
    · exact .inr ⟨s, t, hs, ht⟩
  · rintro (h | ⟨s, t, hs, ht⟩)
    · exact .inl (eq_of_unpack_eq h)
    · exact .inr ⟨⟨s, hs⟩, t, ht⟩

/-- What is equal but for the sign of zero is so when it is packed. -/
lemma unsigned_pack {u v : UnpackedFloat} (h : ZeroAlike u v) :
    unsigned (Float.ofModel (Float.Model.pack u)) = unsigned (Float.ofModel (Float.Model.pack v)) := by
  rcases h with rfl | ⟨s, t, rfl, rfl⟩
  · rfl
  · rw [unsigned_eq_iff]
    exact .inr ⟨s, t, unpack_packedZero, unpack_packedZero⟩

/-- Addition of numbers commutes, bit by bit. -/
lemma add_comm_float (x y : Float) : x + y = y + x :=
  congrArg (fun u => Float.ofModel (Float.Model.pack u)) (ZeroAlike.add_comm _ _)

/-- A sum does not depend on the signs of zeros, but for its own. -/
lemma unsigned_add (hx : unsigned x = unsigned x') (hy : unsigned y = unsigned y') :
    unsigned (x + y) = unsigned (x' + y') := by
  have hleft : ∀ {x x' : Float} (y : Float), unsigned x = unsigned x' → unsigned (x + y) = unsigned (x' + y) := by
    intro x x' y h
    apply unsigned_pack
    rcases unsigned_eq_iff.mp h with h | ⟨s, t, hs, ht⟩
    · rw [h]
      exact .inl rfl
    · rw [hs, ht]
      exact ZeroAlike.add_zero s t _
  rw [hleft y hx, add_comm_float x' y, add_comm_float x' y', hleft x' hy]

/-- Nor does a product. -/
lemma unsigned_mul (x : Float) (hy : unsigned y = unsigned y') : unsigned (x * y) = unsigned (x * y') := by
  apply unsigned_pack
  rcases unsigned_eq_iff.mp hy with h | ⟨s, t, hs, ht⟩
  · rw [h]
    exact .inl rfl
  · rw [hs, ht]
    exact ZeroAlike.mul_zero _ s t

/-- Nor does a quotient, on the sign of its numerator. -/
lemma unsigned_div (hx : unsigned x = unsigned x') (y : Float) : unsigned (x / y) = unsigned (x' / y) := by
  apply unsigned_pack
  rcases unsigned_eq_iff.mp hx with h | ⟨s, t, hs, ht⟩
  · rw [h]
    exact .inl rfl
  · rw [hs, ht]
    exact ZeroAlike.zero_div s t _

/-- Rounding to 32 bits does not depend on the sign of a zero. -/
lemma unsigned_toSingle (h : unsigned x = unsigned y) : unsigned (toSingle x) = unsigned (toSingle y) := by
  rcases (unsigned_eq_iff_of_zero zero_beq_zero).mp h with rfl | ⟨hx, hy⟩
  · rfl
  · have hzero : ∀ {x : Float}, (x == 0) = true → (toSingle x == 0) = true := by
      intro x hx
      rw [toSingle, if_pos hx]
      split
      · exact single_zero_beq_zero
      · decide +kernel
    exact (unsigned_eq_iff_of_zero single_zero_beq_zero).mpr (.inr ⟨hzero hx, hzero hy⟩)

/-- Neither does widening to 64 bits. -/
lemma unsigned_toDouble {x y : Float32} (h : unsigned x = unsigned y) :
    unsigned (toDouble x) = unsigned (toDouble y) := by
  rcases (unsigned_eq_iff_of_zero single_zero_beq_zero).mp h with rfl | ⟨hx, hy⟩
  · rfl
  · have hzero : ∀ {x : Float32}, (x == 0) = true → (toDouble x == 0) = true := by
      intro x hx
      rw [toDouble, if_pos hx]
      split
      · exact zero_beq_zero
      · decide +kernel
    exact (unsigned_eq_iff_of_zero zero_beq_zero).mpr (.inr ⟨hzero hx, hzero hy⟩)

/-! ## Lengths -/

/-- The sign of a number stands apart from its size. -/
lemma unpack_packComponents_neg {spec : Format} (s : Sign) (e : BitVec spec.exponentBits)
    (m : BitVec spec.mantissaBitsWithoutImplicit) :
    unpack spec (packComponents spec (-s) e m) = (unpack spec (packComponents spec s e m)).neg := by
  unfold UnpackedFloat.unpack
  simp only [unpackSign_packComponents, unpackExponent_packComponents, unpackMantissa_packComponents,
    Sign.ofBitVec_toBitVec]
  split_ifs <;> rfl

/-- Changing the sign survives packing. -/
lemma unpack_pack_neg {spec : Format} (hspec : 2 ≤ spec.exponentBits) (b : BitVec spec.numBits) :
    unpack spec (pack spec (unpack spec b).neg) = (unpack spec b).neg := by
  by_cases hnan : unpack spec b = .notANumber
  · rw [hnan]
    exact unpack_packedNaN
  · have hneg := unpack_packComponents_neg (Sign.ofBitVec (unpackSign b)) (unpackExponent b) (unpackMantissa b)
    rw [packComponents_unpackSign_unpackExponent_unpackMantissa] at hneg
    rw [← hneg]
    -- The bits with the other sign are no special value, since those of the number are none.
    refine congrArg _ (pack_unpack_of_valid ⟨?_⟩ hspec)
    rw [unpackExponent_packComponents, unpackMantissa_packComponents]
    intro hexponent hmantissa
    refine absurd ?_ hnan
    simp only [UnpackedFloat.unpack, hexponent, hmantissa, if_true, if_false]

/-- The square of a number is that of its negative. -/
lemma neg_mul_neg_self (x : Float) : -x * -x = x * x := by
  have hmul : ∀ u : UnpackedFloat, UnpackedFloat.mul Format.binary64 u.neg u.neg =
      UnpackedFloat.mul Format.binary64 u u := by
    intro u
    cases u with
    | notANumber => rfl
    | infinity s | zero s | finite s _ _ _ => cases s <;> rfl
  have hneg : (-x).toModel.unpack = x.toModel.unpack.neg := unpack_pack_neg (by decide) _
  change Float.ofModel (Float.Model.pack (UnpackedFloat.mul _ (-x).toModel.unpack (-x).toModel.unpack)) = _
  rw [hneg, hmul]
  rfl

/-- Packing undoes unpacking. -/
lemma pack_unpack (x : Float) : Float.ofModel (Float.Model.pack x.toModel.unpack) = x := by
  obtain ⟨⟨⟨b⟩, hb⟩⟩ := x
  have hbits : UnpackedFloat.pack Format.binary64 (UnpackedFloat.unpack Format.binary64 b) = b :=
    pack_unpack_of_valid hb
  simp only [Float.Model.pack, Float.Model.unpack, hbits]

/-- Adding zero changes the sign of a zero at most. -/
lemma unsigned_add_zero (x : Float) : unsigned (x + 0) = unsigned x := by
  have halike : ∀ u, ZeroAlike (UnpackedFloat.add Format.binary64 u (.zero .positive)) u := by
    intro u
    cases u with
    | zero s => cases s <;> exact ZeroAlike.zeros _ _
    | notANumber | infinity _ | finite _ _ _ _ => exact .inl rfl
  have hadd := unsigned_pack (halike x.toModel.unpack)
  rw [pack_unpack, ← unpack_zero] at hadd
  exact hadd

/-- Square roots do not depend on the sign of a zero. -/
lemma unsigned_sqrt (h : unsigned x = unsigned y) : unsigned (Float.sqrt x) = unsigned (Float.sqrt y) := by
  apply unsigned_pack
  rcases unsigned_eq_iff.mp h with h | ⟨s, t, hs, ht⟩
  · rw [h]
    exact .inl rfl
  · rw [hs, ht]
    exact ZeroAlike.zeros s t

/-- Comparisons do not depend on the sign of a zero. -/
lemma le_congr_unsigned (h : unsigned x = unsigned x') (y : Float) : x ≤ y ↔ x' ≤ y := by
  rw [Double.le_iff, Double.le_iff, unpacked_le_iff, unpacked_le_iff]
  rcases unsigned_eq_iff.mp h with h | ⟨s, t, hs, ht⟩
  · rw [h]
  · rw [hs, ht]
    simp [floatPlace]

/-- What is positive is no zero. -/
lemma beq_zero_of_pos (h : 0 < x) : (x == 0) = false := by
  rw [Bool.eq_false_iff, ne_eq, beq_zero_iff]
  rintro ⟨s, hs⟩
  rw [Double.lt_iff, unpacked_lt_iff, hs, unpack_zero] at h
  exact lt_irrefl _ h.2.2

/-- Numbers are equal if they are the same but for the sign of zero, and no NaN. -/
lemma beq_iff : (x == y) = true ↔ unsigned x = unsigned y ∧ (x == x) = true := by
  have hself : (x == x) = true ↔ x.toModel.unpack ≠ .notANumber := by
    change UnpackedFloat.beq x.toModel.unpack x.toModel.unpack = true ↔ _
    rw [beq_iff_ne_notANumber_and_eq]
    simp
  rw [hself, unsigned_eq_iff]
  change UnpackedFloat.beq x.toModel.unpack y.toModel.unpack = true ↔ _
  rw [beq_iff_ne_notANumber_and_eq]
  constructor
  · rintro ⟨hx, -, h | ⟨hx', hy'⟩ | ⟨hx', hy'⟩⟩
    · exact ⟨.inl h, hx⟩
    · exact ⟨.inr ⟨_, _, hx', hy'⟩, hx⟩
    · exact ⟨.inr ⟨_, _, hx', hy'⟩, hx⟩
  · rintro ⟨h | ⟨s, t, hx', hy'⟩, hx⟩
    · exact ⟨hx, h ▸ hx, .inl h⟩
    · rw [hx', hy']
      cases s <;> cases t <;> simp

end Scalar

end BuildingModel
