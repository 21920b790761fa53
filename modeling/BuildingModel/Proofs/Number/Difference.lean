import BuildingModel.Proofs.Number.SignedZero
import Mathlib

/-!
# The sign of a difference

A number of a format is written in one way only: with the leading bit of its mantissa set, unless its exponent is
the least. So numbers compare as their mantissas do once they are brought to one exponent. Rounding to the format
never makes a zero of a mantissa whose exponent is not below the least. Hence a difference is negative exactly if
the first number is less than the second, however near they are and also where the difference is too great for the
format. Products with one and sums with zero are exact but for the sign of zero.
-/

namespace BuildingModel

open Float.Model Float.Model.UnpackedFloat

variable {spec : Format}

/-- What fits the format but for the size of its exponent. -/
def Fits (spec : Format) : UnpackedFloat → Prop
  | .finite _ m e _ => m < 2 ^ spec.mantissaBits ∧ spec.minExponent ≤ e
  | _ => True

/-- What fits the format in the only way: with the leading bit set, unless the exponent is the least. -/
def Canonical (spec : Format) : UnpackedFloat → Prop
  | .finite _ m e _ => m < 2 ^ spec.mantissaBits ∧ spec.minExponent ≤ e ∧
      (e = spec.minExponent ∨ 2 ^ spec.mantissaBitsWithoutImplicit ≤ m)
  | _ => True

/-- What is canonical fits. -/
lemma Canonical.fits {u : UnpackedFloat} (h : Canonical spec u) : Fits spec u := by
  cases u with
  | finite s m e hm => exact ⟨h.1, h.2.1⟩
  | notANumber | infinity _ | zero _ => trivial

/-- The least exponent, from the bias and the width of the format. -/
lemma minExponent_eq (spec : Format) :
    spec.minExponent = 1 - (spec.exponentBias + spec.mantissaBitsWithoutImplicit : ℤ) := by
  have hpos : 0 < 2 ^ (spec.exponentBits - 1) := by positivity
  simp only [Format.minExponent, Format.exponentBias, Format.mantissaBits]
  push_cast [Nat.cast_sub (Nat.one_le_iff_ne_zero.mpr hpos.ne')]
  ring

/-- The leading bit is not stored. -/
lemma two_pow_mantissaBits (spec : Format) :
    2 ^ spec.mantissaBits = 2 * 2 ^ spec.mantissaBitsWithoutImplicit := by
  rw [Format.mantissaBits, pow_add, pow_one]

/-- Every pattern of bits stands for a canonical number. -/
lemma canonical_unpack (b : BitVec spec.numBits) : Canonical spec (unpack spec b) := by
  have hmantissa : (unpackMantissa b).toNat < 2 ^ spec.mantissaBitsWithoutImplicit := (unpackMantissa b).isLt
  have hbits := two_pow_mantissaBits spec
  unfold UnpackedFloat.unpack
  dsimp only
  split_ifs with hlast hzero hfirst hzero
  · trivial
  · trivial
  · trivial
  · refine ⟨by omega, ?_, .inl ?_⟩
    all_goals
      rw [minExponent_eq, hfirst]
      simp only [BitVec.toNat_zero]
      omega
  · have hexponent : 0 < (unpackExponent b).toNat := by
      rw [Nat.pos_iff_ne_zero]
      exact fun h => hfirst (BitVec.eq_of_toNat_eq h)
    have hleading : (1#1 ++ unpackMantissa b).toNat =
        2 ^ spec.mantissaBitsWithoutImplicit + (unpackMantissa b).toNat := by
      rw [BitVec.toNat_append, ← Nat.shiftLeft_add_eq_or_of_lt hmantissa, Nat.shiftLeft_eq]
      simp
    refine ⟨by omega, ?_, .inr (by omega)⟩
    rw [minExponent_eq]
    omega

/-- Shifting to the right divides, whatever is remembered of the bits that are lost. -/
lemma mantissa_shiftRight (em : ExtendedMantissa) (n : ℕ) : (em >>> n).mantissa = em.mantissa / 2 ^ n := by
  change (n.repeat ExtendedMantissa.shiftRightOne em).mantissa = _
  induction n with
  | zero => simp [Nat.repeat]
  | succ n ih => rw [Nat.repeat, ExtendedMantissa.shiftRightOne, ih, Nat.div_div_eq_div_mul, pow_succ]

/-- Rounding never makes a mantissa smaller than its integral part. -/
lemma le_roundedMantissa (em : ExtendedMantissa) : em.mantissa ≤ em.roundedMantissa := by
  obtain ⟨m, r, s⟩ := em
  cases r <;> cases s <;>
    simp [ExtendedMantissa.roundedMantissa, ExtendedMantissa.accuracy, Accuracy.roundToNearestEven]

/-- The accuracy does not change the mantissa. -/
lemma mantissa_ofMantissaAndAccuracy (m : ℕ) (a : Accuracy) :
    (ExtendedMantissa.ofMantissaAndAccuracy m a).mantissa = m := by
  cases a with
  | exact => rfl
  | inexact o => cases o <;> rfl

/-- After the shift to the target exponent a mantissa is positive and fits the format. -/
lemma shiftToTargetExponent_fits {m : ℕ} {e : ℤ} (hm : 0 < m) (he : spec.minExponent ≤ e) (a : Accuracy) :
    0 < (shiftToTargetExponent spec m e a).1.mantissa ∧
      (shiftToTargetExponent spec m e a).1.mantissa < 2 ^ spec.mantissaBits ∧
        spec.minExponent ≤ (shiftToTargetExponent spec m e a).2 := by
  simp only [shiftToTargetExponent, shiftToExponent, mantissa_shiftRight, mantissa_ofMantissaAndAccuracy,
    Format.targetExponent, totalExponent]
  generalize hn : (max ((m.log2 : ℤ) + 1 + e - spec.mantissaBits) spec.minExponent - e).toNat = n
  have hpos : 0 < spec.mantissaBits := by simp [Format.mantissaBits]
  refine ⟨?_, ?_, by omega⟩
  · have hle : n ≤ m.log2 := by omega
    exact Nat.div_pos ((Nat.pow_le_pow_right (by omega) hle).trans (Nat.log2_self_le hm.ne')) (by positivity)
  · have hle : m.log2 + 1 ≤ spec.mantissaBits + n := by omega
    rw [Nat.div_lt_iff_lt_mul (by positivity), ← pow_add]
    exact Nat.lt_log2_self.trans_le (Nat.pow_le_pow_right (by omega) hle)

/-- Rounding a positive mantissa gives a finite number that fits, with the same sign. -/
lemma roundWithAccuracy_fits {m : ℕ} {e : ℤ} (hm : 0 < m) (he : spec.minExponent ≤ e) (s : Sign) (a : Accuracy) :
    ∃ n f hn, roundWithAccuracy spec s m e a = .finite s n f hn ∧ Fits spec (.finite s n f hn) := by
  obtain ⟨hfirst, -, hfirst'⟩ := shiftToTargetExponent_fits hm he a
  have hrounded := hfirst.trans_le (le_roundedMantissa _)
  obtain ⟨hsecond, hbits, hexponent⟩ := shiftToTargetExponent_fits hrounded hfirst' .exact
  refine ⟨_, _, hsecond, ?_, hbits, hexponent⟩
  unfold roundWithAccuracy
  exact dif_neg hsecond.ne'

/-- Rounding an exact mantissa gives a finite number that fits. -/
lemma round_fits {m : ℕ} {e : ℤ} (hm : 0 < m) (he : spec.minExponent ≤ e) (s : Sign) :
    ∃ n f hn, round spec s m e = .finite s n f hn ∧ Fits spec (.finite s n f hn) := by
  unfold UnpackedFloat.round decreaseExponent
  apply roundWithAccuracy_fits
  · rw [Nat.shiftLeft_eq]
    positivity
  · simp only [Format.targetExponent]
    omega

/-- Rounding keeps the sign: what is not zero is not rounded to zero. -/
lemma normalize_lt_zero {e : ℤ} (he : spec.minExponent ≤ e) (k : ℤ) (s : Sign) :
    Fits spec (normalize spec k e s) ∧ ((normalize spec k e s).lt (.zero .positive) = true ↔ k < 0) := by
  unfold UnpackedFloat.normalize
  rcases lt_trichotomy k 0 with h | h | h
  · obtain ⟨n, f, hn, heq, hfits⟩ := round_fits (m := (-k).toNat) (by omega) he .negative
    rw [compare_lt_iff_lt.mpr h, heq]
    exact ⟨hfits, iff_of_true rfl h⟩
  · subst h
    exact ⟨trivial, by cases s <;> simp [UnpackedFloat.lt, UnpackedFloat.compare]⟩
  · obtain ⟨n, f, hn, heq, hfits⟩ := round_fits (m := k.toNat) (by omega) he .positive
    rw [compare_gt_iff_gt.mpr h, heq]
    exact ⟨hfits, iff_of_false (by simp [UnpackedFloat.lt, UnpackedFloat.compare]) h.not_gt⟩

/-- The pattern of an infinity stands for it. -/
lemma unpack_packedInfinity (s : Sign) : unpack spec (packedInfinity spec s) = .infinity s := by
  unfold UnpackedFloat.unpack packedInfinity
  simp only [unpackExponent_packComponents, unpackMantissa_packComponents, unpackSign_packComponents,
    Sign.ofBitVec_toBitVec]
  rfl

/-- A pattern that is neither an infinity nor a zero stands for a finite number. -/
lemma unpack_packComponents (s : Sign) {e : BitVec spec.exponentBits} {m : BitVec spec.mantissaBitsWithoutImplicit}
    (he : e ≠ -1#_) (hzero : e ≠ 0#_ ∨ m ≠ 0#_) :
    ∃ n f hn, unpack spec (packComponents spec s e m) = .finite s n f hn := by
  unfold UnpackedFloat.unpack
  simp only [unpackExponent_packComponents, unpackMantissa_packComponents, unpackSign_packComponents,
    Sign.ofBitVec_toBitVec]
  rw [if_neg he]
  by_cases h : e = 0#_
  · have hm : m ≠ 0#_ := hzero.resolve_left (absurd h)
    rw [if_pos h, dif_neg hm]
    exact ⟨_, _, Nat.pos_of_ne_zero fun hm' => hm (BitVec.eq_of_toNat_eq hm'), rfl⟩
  · rw [if_neg h]
    exact ⟨_, _, by simp, rfl⟩

/-- A number that fits is a number of its sign in bits, or too great for them. -/
lemma unpack_pack_finite {s : Sign} {m : ℕ} {e : ℤ} {hm : 0 < m} (h : Fits spec (.finite s m e hm)) :
    unpack spec (UnpackedFloat.pack spec (.finite s m e hm)) = .infinity s ∨
      ∃ n f hn, unpack spec (UnpackedFloat.pack spec (.finite s m e hm)) = .finite s n f hn := by
  obtain ⟨hbits, hexponent⟩ := h
  rw [minExponent_eq] at hexponent
  unfold UnpackedFloat.pack
  dsimp only
  generalize hb : (e + spec.exponentBias + spec.mantissaBitsWithoutImplicit).toNat = biased
  split_ifs with hgreat hleading
  · exact .inl (unpack_packedInfinity s)
  · refine .inr (unpack_packComponents s ?_ (.inl ?_))
    all_goals
      rw [ne_eq, ← BitVec.toNat_inj, BitVec.toNat_ofNat, Nat.mod_eq_of_lt (by omega)]
    · rw [BitVec.neg_one_eq_allOnes, BitVec.toNat_allOnes]
      omega
    · rw [BitVec.toNat_zero]
      omega
  · have hless : m < 2 ^ spec.mantissaBitsWithoutImplicit := by
      rw [← Nat.log2_lt hm.ne']
      have := (Nat.log2_lt hm.ne').mpr hbits
      rw [Format.mantissaBits] at this hleading
      omega
    refine .inr (unpack_packComponents s ?_ (.inr ?_))
    · simp [Nat.pos_iff_ne_zero.mp spec.he]
    · rw [ne_eq, ← BitVec.toNat_inj, BitVec.toNat_ofNat, Nat.mod_eq_of_lt hless]
      exact hm.ne'

/-- A number that fits keeps its sign in bits, also where it is too great for them. -/
lemma unpack_pack_lt_zero {u : UnpackedFloat} (h : Fits spec u) :
    (unpack spec (UnpackedFloat.pack spec u)).lt (.zero .positive) = u.lt (.zero .positive) := by
  cases u with
  | notANumber => rw [UnpackedFloat.pack, unpack_packedNaN]
  | infinity s => rw [UnpackedFloat.pack, unpack_packedInfinity]
  | zero s => rw [UnpackedFloat.pack, unpack_packedZero]
  | finite s m e hm =>
    obtain heq | ⟨n, f, hn, heq⟩ := unpack_pack_finite h
    · rw [heq]
      cases s <;> rfl
    · rw [heq]
      cases s <;> rfl

/-- A mantissa without its leading bit is less than one with it, once that is shifted. -/
lemma lt_shiftLeft {m n k : ℕ} (hm : m < 2 ^ spec.mantissaBits) (hn : 2 ^ spec.mantissaBitsWithoutImplicit ≤ n)
    (hk : k ≠ 0) : m < n <<< k := by
  rw [Nat.shiftLeft_eq]
  calc m < 2 * 2 ^ spec.mantissaBitsWithoutImplicit := two_pow_mantissaBits spec ▸ hm
    _ ≤ n * 2 := by omega
    _ ≤ n * 2 ^ k := Nat.mul_le_mul_left n (Nat.le_self_pow hk 2)

/-- Numbers in the only way they fit compare as their mantissas at one exponent do. -/
lemma toLex_lt_iff {m n : ℕ} {e f : ℤ} {s t : Sign} {hm : 0 < m} {hn : 0 < n}
    (h : Canonical spec (.finite s m e hm)) (h' : Canonical spec (.finite t n f hn)) :
    toLex (e, (m : ℤ)) < toLex (f, (n : ℤ)) ↔
      m <<< (e - min e f).toNat < n <<< (f - min e f).toNat := by
  obtain ⟨hbits, hexponent, hleading⟩ := h
  obtain ⟨hbits', hexponent', hleading'⟩ := h'
  rw [Prod.Lex.toLex_lt_toLex]
  rcases lt_trichotomy e f with hlt | rfl | hlt
  · have hzero : (e - min e f).toNat = 0 := by omega
    rw [hzero, Nat.shiftLeft_zero]
    exact iff_of_true (.inl hlt) (lt_shiftLeft hbits (hleading'.resolve_left (by omega)) (by omega))
  · simp
  · have hzero : (f - min e f).toNat = 0 := by omega
    rw [hzero, Nat.shiftLeft_zero]
    refine iff_of_false (by rintro (h | h) <;> omega) ?_
    exact (lt_shiftLeft hbits' (hleading.resolve_left (by omega)) (by omega)).not_gt

/-- Numbers compare as the signed mantissas at one exponent do. -/
lemma finite_lt_iff {m n : ℕ} {e f : ℤ} {s t : Sign} {hm : 0 < m} {hn : 0 < n}
    (h : Canonical spec (.finite s m e hm)) (h' : Canonical spec (.finite t n f hn)) :
    (UnpackedFloat.finite s m e hm).lt (.finite t n f hn) = true ↔
      s.apply (m <<< (e - min e f).toNat : ℕ) < t.apply (n <<< (f - min e f).toNat : ℕ) := by
  have hm' : 0 < m <<< (e - min e f).toNat := by
    rw [Nat.shiftLeft_eq]
    positivity
  have hn' : 0 < n <<< (f - min e f).toNat := by
    rw [Nat.shiftLeft_eq]
    positivity
  rw [unpacked_lt_iff]
  simp only [ne_eq, reduceCtorEq, not_false_eq_true, true_and]
  cases s with
  | negative =>
    cases t with
    | negative =>
      have hplace := toLex_lt_iff h' h
      rw [min_comm f e, Prod.Lex.toLex_lt_toLex] at hplace
      simp only [floatPlace, Sign.apply, Prod.Lex.toLex_lt_toLex, lt_irrefl, false_or, true_and]
      omega
    | positive =>
      simp only [floatPlace, Sign.apply, Prod.Lex.toLex_lt_toLex]
      omega
  | positive =>
    cases t with
    | negative =>
      simp only [floatPlace, Sign.apply, Prod.Lex.toLex_lt_toLex]
      omega
    | positive =>
      have hplace := toLex_lt_iff h h'
      rw [Prod.Lex.toLex_lt_toLex] at hplace
      simp only [floatPlace, Sign.apply, Prod.Lex.toLex_lt_toLex, lt_irrefl, false_or, true_and]
      omega

/-- The sign of a difference says which number is less. No difference of unequal numbers is rounded to zero. -/
lemma sub_lt_zero {u v : UnpackedFloat} (hu : Canonical spec u) (hv : Canonical spec v)
    (hfinite : u.isFinite = true) (hnumber : v ≠ .notANumber) :
    Fits spec (UnpackedFloat.sub spec u v) ∧
      ((UnpackedFloat.sub spec u v).lt (.zero .positive) = true ↔ u.lt v = true) := by
  cases u with
  | notANumber | infinity s => exact absurd hfinite Bool.false_ne_true
  | zero s =>
    cases v with
    | notANumber => exact absurd rfl hnumber
    | infinity t => exact ⟨trivial, by cases t <;> rfl⟩
    | zero t => exact ⟨by cases s <;> cases t <;> trivial, by cases s <;> cases t <;> rfl⟩
    | finite t n f hn => exact ⟨hv.fits, by cases t <;> rfl⟩
  | finite s m e hm =>
    cases v with
    | notANumber => exact absurd rfl hnumber
    | infinity t => exact ⟨trivial, by cases s <;> cases t <;> rfl⟩
    | zero t => exact ⟨hu.fits, by cases s <;> rfl⟩
    | finite t n f hn =>
      obtain ⟨hfits, hsign⟩ := normalize_lt_zero (le_min hu.2.1 hv.2.1)
        (s.apply (m <<< (e - min e f).toNat : ℕ) - t.apply (n <<< (f - min e f).toNat : ℕ)) .positive
      exact ⟨hfits, hsign.trans (sub_neg.trans (finite_lt_iff hu hv).symm)⟩

/-- The exponent of a canonical number is the one that rounding aims at. -/
lemma targetExponent_of_canonical {s : Sign} {m : ℕ} {e : ℤ} {hm : 0 < m} (h : Canonical spec (.finite s m e hm)) :
    spec.targetExponent (totalExponent m e) = e := by
  obtain ⟨hbits, hexponent, hleading⟩ := h
  have hlog := (Nat.log2_lt hm.ne').mpr hbits
  have hleading' : e = spec.minExponent ∨ spec.mantissaBitsWithoutImplicit ≤ m.log2 :=
    hleading.imp_right (Nat.le_log2 hm.ne').mpr
  simp only [Format.targetExponent, totalExponent, Format.mantissaBits] at hlog ⊢
  omega

/-- A shift that loses only zeros is exact. -/
lemma shiftRight_exact (m k : ℕ) :
    ExtendedMantissa.ofMantissaAndAccuracy (2 ^ k * m) .exact >>> k =
      ExtendedMantissa.ofMantissaAndAccuracy m .exact := by
  change k.repeat ExtendedMantissa.shiftRightOne _ = _
  induction k generalizing m with
  | zero => simp [Nat.repeat]
  | succ k ih =>
    rw [Nat.repeat, pow_succ, mul_assoc, ih]
    simp [ExtendedMantissa.shiftRightOne, ExtendedMantissa.ofMantissaAndAccuracy]

/-- A power of two adds to the logarithm. -/
lemma log2_two_pow_mul {m : ℕ} (hm : 0 < m) (k : ℕ) : (2 ^ k * m).log2 = k + m.log2 := by
  rw [Nat.log2_eq_iff (by positivity)]
  rw [add_assoc, pow_add, pow_add]
  exact ⟨Nat.mul_le_mul_left _ (Nat.log2_self_le hm.ne'), Nat.mul_lt_mul_of_pos_left Nat.lt_log2_self (by positivity)⟩

/-- Rounding gives back a number that fits, written with more bits. -/
lemma roundWithAccuracy_shifted {s t : Sign} {m : ℕ} {e : ℤ} {hm : 0 < m} (h : Canonical spec (.finite s m e hm))
    (k : ℕ) : roundWithAccuracy spec t (2 ^ k * m) (-k + e) .exact = .finite t m e hm := by
  have htarget := targetExponent_of_canonical h
  have hfirst : shiftToTargetExponent spec (2 ^ k * m) (-k + e) .exact =
      (ExtendedMantissa.ofMantissaAndAccuracy m .exact, e) := by
    have htotal : totalExponent (2 ^ k * m) (-k + e) = totalExponent m e := by
      simp only [totalExponent, log2_two_pow_mul hm]
      omega
    have hshift : (e - (-k + e)).toNat = k := by omega
    simp only [shiftToTargetExponent, shiftToExponent, htotal, htarget, hshift, shiftRight_exact]
    simp
  have hsecond : shiftToTargetExponent spec m e .exact = (ExtendedMantissa.ofMantissaAndAccuracy m .exact, e) := by
    simp only [shiftToTargetExponent, shiftToExponent, htarget, sub_self, Int.toNat_zero, Nat.cast_zero, add_zero]
    rfl
  have hrounded : (ExtendedMantissa.ofMantissaAndAccuracy m .exact).roundedMantissa = m := rfl
  simp only [roundWithAccuracy, hfirst, hrounded, hsecond]
  exact dif_neg hm.ne'

/-- Changing the sign mirrors the place. -/
lemma floatPlace_neg (u : UnpackedFloat) : floatPlace u.neg = -floatPlace u := by
  cases u with
  | notANumber => rfl
  | zero s => rfl
  | infinity s => cases s <;> rfl
  | finite s m e hm =>
    cases s
    · simp only [UnpackedFloat.neg]
      change toLex ((1 : ℤ), toLex (e, (m : ℤ))) = toLex (- -1, toLex (- -e, - -(m : ℤ)))
      simp only [neg_neg]
    · rfl

lemma neg_eq_notANumber_iff {u : UnpackedFloat} : u.neg = .notANumber ↔ u = .notANumber := by
  cases u <;> simp [UnpackedFloat.neg]

lemma isFinite_unpacked_neg (u : UnpackedFloat) : u.neg.isFinite = u.isFinite := by
  cases u <;> rfl

lemma isNaN_unpacked_neg (u : UnpackedFloat) : u.neg.isNaN = u.isNaN := by
  cases u <;> rfl

/-- Multiplying a canonical number by one gives it back, and by minus one changes its sign. -/
lemma mul_one {u : UnpackedFloat} (hu : Canonical Format.binary32 u) :
    UnpackedFloat.mul Format.binary32 (.finite .positive (2 ^ 23) (-23) (by decide)) u = u ∧
      UnpackedFloat.mul Format.binary32 (.finite .negative (2 ^ 23) (-23) (by decide)) u = u.neg := by
  cases u with
  | notANumber => exact ⟨rfl, rfl⟩
  | infinity s | zero s => cases s <;> exact ⟨rfl, rfl⟩
  | finite s m e hm => cases s <;> exact ⟨roundWithAccuracy_shifted hu 23, roundWithAccuracy_shifted hu 23⟩

namespace Single

variable {x y z : Float32}

/-- Every number of 32 bits is unpacked canonically. -/
lemma canonical_unpack (x : Float32) : Canonical Format.binary32 x.toModel.unpack :=
  BuildingModel.canonical_unpack _

/-- Unpacking is undone by packing. -/
lemma unpack_pack (x : Float32) : unpack Format.binary32 (UnpackedFloat.pack Format.binary32 x.toModel.unpack) =
    x.toModel.unpack :=
  congrArg _ (pack_unpack_of_valid x.toModel.valid)

/-- Changing the sign of a number changes the sign of what it is unpacked to. -/
lemma unpack_neg (x : Float32) : (-x).toModel.unpack = x.toModel.unpack.neg :=
  Scalar.unpack_pack_neg (by decide) _

/-- What one is unpacked to. -/
lemma unpack_one : (1 : Float32).toModel.unpack = .finite .positive (2 ^ 23) (-23) (by decide) := by
  rfl

/-- The sign of a difference says which number is less. -/
lemma sub_lt_zero_iff (hx : x.isFinite = true) (hy : y.isNaN = false) : x - y < 0 ↔ x < y := by
  obtain ⟨hfits, hsign⟩ :=
    BuildingModel.sub_lt_zero (canonical_unpack x) (canonical_unpack y) hx (unpack_ne_notANumber hy)
  rw [lt_iff, lt_iff, unpack_zero, ← hsign, ← unpack_pack_lt_zero hfits]
  rfl

/-- Numbers that differ at most in the sign of zero compare alike. -/
lemma lt_congr_left (h : ZeroAlike x.toModel.unpack y.toModel.unpack) (z : Float32) : x < z ↔ y < z := by
  rw [lt_iff, lt_iff, unpacked_lt_iff, unpacked_lt_iff]
  rcases h with h | ⟨s, t, hs, ht⟩
  · rw [h]
  · rw [hs, ht]
    simp [floatPlace]

/-- Changing the signs turns the order around. -/
lemma neg_lt_neg : -x < -y ↔ y < x := by
  rw [lt_iff, lt_iff, unpack_neg, unpack_neg, unpacked_lt_iff, unpacked_lt_iff, floatPlace_neg, floatPlace_neg,
    neg_lt_neg_iff, ne_eq, neg_eq_notANumber_iff, ne_eq, neg_eq_notANumber_iff]
  exact and_left_comm

/-- A finite number stays finite when its sign changes. -/
lemma isFinite_neg (hx : x.isFinite = true) : (-x).isFinite = true := by
  change (-x).toModel.unpack.isFinite = true
  rw [unpack_neg, isFinite_unpacked_neg]
  exact hx

/-- A number stays a number when its sign changes. -/
lemma isNaN_neg (hx : x.isNaN = false) : (-x).isNaN = false := by
  change (-x).toModel.unpack.isNaN = false
  rw [unpack_neg, isNaN_unpacked_neg]
  exact hx

/-- One is neutral, bit by bit. -/
lemma one_mul (x : Float32) : 1 * x = x := by
  apply eq_of_unpack_eq
  change unpack _ (UnpackedFloat.pack _ (UnpackedFloat.mul _ (1 : Float32).toModel.unpack x.toModel.unpack)) = _
  rw [unpack_one, (mul_one (canonical_unpack x)).1, unpack_pack]

/-- Minus one changes the sign, bit by bit. -/
lemma neg_one_mul (x : Float32) : -1 * x = -x := by
  apply eq_of_unpack_eq
  change unpack _ (UnpackedFloat.pack _ (UnpackedFloat.mul _ (-1 : Float32).toModel.unpack x.toModel.unpack)) = _
  rw [unpack_neg, unpack_one, unpack_neg]
  exact (congrArg _ (congrArg _ ((mul_one (canonical_unpack x)).2))).trans (Scalar.unpack_pack_neg (by decide) _)

/-- A zero of either sign. -/
def IsZero (z : Float32) : Prop := ∃ s, z.toModel.unpack = .zero s

lemma isZero_zero : IsZero 0 := ⟨_, unpack_zero⟩

lemma isZero_neg_zero : IsZero (-0) := ⟨_, by rw [unpack_neg, unpack_zero]; rfl⟩

/-- A zero times a finite number is a zero. -/
lemma IsZero.mul (hz : IsZero z) (hx : x.isFinite = true) : IsZero (z * x) := by
  obtain ⟨s, hs⟩ := hz
  have hfinite : x.toModel.unpack.isFinite = true := hx
  change ∃ t, unpack _ (UnpackedFloat.pack _ (UnpackedFloat.mul _ z.toModel.unpack x.toModel.unpack)) = .zero t
  rw [hs]
  cases h : x.toModel.unpack with
  | notANumber | infinity t =>
    rw [h] at hfinite
    exact Bool.noConfusion hfinite
  | zero t | finite t m e hm => exact ⟨s * t, unpack_packedZero⟩

/-- Adding a zero on the right changes the sign of a zero at most. -/
lemma add_isZero (hz : IsZero z) (x : Float32) : ZeroAlike (x + z).toModel.unpack x.toModel.unpack := by
  obtain ⟨s, hs⟩ := hz
  have hpack := unpack_pack x
  change ZeroAlike (unpack _ (UnpackedFloat.pack _ (UnpackedFloat.add _ x.toModel.unpack z.toModel.unpack))) _
  rw [hs]
  cases h : x.toModel.unpack with
  | notANumber | infinity t | finite t m e hm =>
    rw [h] at hpack
    exact .inl hpack
  | zero t => cases s <;> cases t <;> exact .inr ⟨_, _, unpack_packedZero, rfl⟩

lemma add_comm (x y : Float32) : x + y = y + x :=
  congrArg (fun u => Float32.ofModel (Float32.Model.pack u)) (ZeroAlike.add_comm _ _)

/-- Adding a zero on the left changes the sign of a zero at most. -/
lemma isZero_add (hz : IsZero z) (x : Float32) : ZeroAlike (z + x).toModel.unpack x.toModel.unpack := by
  rw [add_comm]
  exact add_isZero hz x

/-- What differs from a zero in the sign at most is a zero. -/
lemma IsZero.of_zeroAlike (h : ZeroAlike x.toModel.unpack y.toModel.unpack) (hy : IsZero y) : IsZero x := by
  obtain ⟨s, hs⟩ := hy
  rcases h with h | ⟨t, -, ht, -⟩
  · exact ⟨s, h.trans hs⟩
  · exact ⟨t, ht⟩

/-- A sum of a number and two zeros is the number, but for the sign of zero. -/
lemma sum_isZero (hy : IsZero y) (hz : IsZero z) (x : Float32) :
    ZeroAlike (x + y + z).toModel.unpack x.toModel.unpack ∧ ZeroAlike (y + x + z).toModel.unpack x.toModel.unpack ∧
      ZeroAlike (y + z + x).toModel.unpack x.toModel.unpack := by
  refine ⟨?_, ?_, ?_⟩
  · exact (add_isZero hz _).trans (add_isZero hy x)
  · exact (add_isZero hz _).trans (isZero_add hy x)
  · exact isZero_add (.of_zeroAlike (add_isZero hz y) hy) x

end Single

end BuildingModel
