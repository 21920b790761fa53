import BuildingModel.Proofs.Number.Difference
import BuildingModel.Proofs.View.SectionBox
import Mathlib

/-!
# Tight boxes

The box of some points is found by going through them, from a box whose least corner is past its greatest. Each of
its bounds is the first of the extreme coordinates. The bounds to start from are the greatest and the least finite
number, so that one point is enough to replace them. Hence the box is tight (`Box.ofPoints_tight`), and the box of
two lists of points is the union of their boxes (`Box.ofPoints_append`): not only as sets of points, but also in the
signs of zeros.
-/

namespace BuildingModel

/-! ## The first of the foremost -/

section Foremost

variable {β κ : Type} [LinearOrder κ] {place : β → κ} {s x y : β} {xs : List β}

/-- The second of two if its place comes strictly before that of the first, and the first otherwise. -/
def foremost (place : β → κ) (x y : β) : β := if place y < place x then y else x

/-- The place of the foremost is the lesser one. -/
lemma place_foremost (place : β → κ) (x y : β) : place (foremost place x y) = min (place x) (place y) := by
  unfold foremost
  split_ifs with h
  · exact (min_eq_right h.le).symm
  · exact (min_eq_left (not_lt.mp h)).symm

/-- The foremost is one of the two. -/
lemma foremost_eq_or (place : β → κ) (x y : β) : foremost place x y = x ∨ foremost place x y = y := by
  unfold foremost
  split_ifs
  · exact .inr rfl
  · exact .inl rfl

/-- Of two at one place the first is foremost. -/
lemma foremost_eq_left (h : place x ≤ place y) : foremost place x y = x := if_neg h.not_gt

instance : Std.Associative (foremost place) where
  assoc x y z := by
    by_cases hyx : place y < place x
    · have hfirst : foremost place x y = y := if_pos hyx
      have hplace : place (foremost place y z) < place x :=
        (place_foremost place y z).trans_lt (min_lt_of_left_lt hyx)
      rw [hfirst]
      exact (if_pos hplace).symm
    · have hfirst : foremost place x y = x := if_neg hyx
      rw [hfirst]
      by_cases hzy : place z < place y
      · rw [show foremost place y z = z from if_pos hzy]
      · rw [show foremost place y z = y from if_neg hzy, hfirst]
        exact if_neg fun hzx => hzy (hzx.trans_le (not_lt.mp hyx))

/-- The foremost of some has a place before all of them. -/
lemma place_foldl_foremost_le (place : β → κ) (s : β) (xs : List β) :
    place (xs.foldl (foremost place) s) ≤ place s ∧ ∀ x ∈ xs, place (xs.foldl (foremost place) s) ≤ place x := by
  induction xs generalizing s with
  | nil => exact ⟨le_rfl, fun x hx => absurd hx List.not_mem_nil⟩
  | cons x xs ih =>
    obtain ⟨hstart, hrest⟩ := ih (foremost place s x)
    rw [place_foremost place] at hstart
    refine ⟨hstart.trans (min_le_left _ _), ?_⟩
    intro y hy
    rcases List.mem_cons.mp hy with rfl | hy
    · exact hstart.trans (min_le_right _ _)
    · exact hrest y hy

/-- The foremost of some is one of them. -/
lemma foldl_foremost_eq_or_mem (place : β → κ) (s : β) (xs : List β) :
    xs.foldl (foremost place) s = s ∨ xs.foldl (foremost place) s ∈ xs := by
  induction xs generalizing s with
  | nil => exact .inl rfl
  | cons x xs ih =>
    rw [List.foldl_cons]
    rcases ih (foremost place s x) with h | h
    · rw [h]
      rcases foremost_eq_or place s x with h | h
      · exact .inl h
      · rw [h]
        exact .inr List.mem_cons_self
    · exact .inr (List.mem_cons_of_mem x h)

/-- A start that nothing comes before is kept. -/
lemma foldl_foremost_eq_start (h : ∀ x ∈ xs, place s ≤ place x) : xs.foldl (foremost place) s = s := by
  induction xs with
  | nil => rfl
  | cons x xs ih =>
    rw [List.foldl_cons, foremost_eq_left (h x List.mem_cons_self)]
    exact ih fun y hy => h y (List.mem_cons_of_mem x hy)

end Foremost

/-! ## Finite numbers -/

open Float.Model Float.Model.UnpackedFloat

namespace Single

variable {x y : Float32}

/-- The place of a number among all numbers. -/
def place (x : Float32) : ℤ ×ₗ ℤ ×ₗ ℤ := floatPlace x.toModel.unpack

/-- For numbers, to be less is to have a place before. -/
lemma lt_iff_place (hx : x.isNaN = false) (hy : y.isNaN = false) : x < y ↔ place x < place y := by
  rw [lt_iff, unpacked_lt_iff]
  simp [unpack_ne_notANumber hx, unpack_ne_notANumber hy, place]

/-- For numbers, to be at most as great is to have no place behind. -/
lemma le_iff_place (hx : x.isNaN = false) (hy : y.isNaN = false) : x ≤ y ↔ place x ≤ place y := by
  rw [le_iff, unpacked_le_iff]
  simp [unpack_ne_notANumber hx, unpack_ne_notANumber hy, place]

/-- Changing the sign mirrors the place. -/
lemma place_neg (x : Float32) : place (-x) = -place x := by
  rw [place, unpack_neg, floatPlace_neg, place]

/-- Changing the sign twice gives the number back, bit by bit. -/
lemma neg_neg (x : Float32) : - -x = x := by
  apply eq_of_unpack_eq
  rw [unpack_neg, unpack_neg]
  cases x.toModel.unpack with
  | notANumber => rfl
  | zero s | infinity s | finite s m e hm => cases s <;> rfl

lemma beq_self (hx : x.isNaN = false) : (x == x) = true := by
  change UnpackedFloat.beq x.toModel.unpack x.toModel.unpack = true
  rw [beq_iff_ne_notANumber_and_eq]
  exact ⟨unpack_ne_notANumber hx, unpack_ne_notANumber hx, .inl rfl⟩

/-- No exponent of a finite number is greater than that of the greatest one. -/
lemma exponent_le {s : Sign} {m : ℕ} {e : ℤ} {hm : 0 < m} (h : x.toModel.unpack = .finite s m e hm) : e ≤ 104 := by
  have hlast : ∀ v : BitVec 8, v ≠ -1#8 → (v.toNat : ℤ) ≤ 254 := by decide
  change UnpackedFloat.unpack Format.binary32 x.toModel.toBits.toBitVec = _ at h
  unfold UnpackedFloat.unpack at h
  dsimp only at h
  split_ifs at h with hinfinite hzero hfirst hmantissa
  · injection h with _ _ he
    rw [hfirst] at he
    norm_num [Format.exponentBias] at he
    linarith
  · injection h with _ _ he
    have hexponent := hlast _ hinfinite
    norm_num [Format.exponentBias] at he
    linarith

/-- The place of the largest number. -/
lemma place_largest : place Scalar.largest = toLex (1, toLex (104, 16777215)) := by
  rw [place]
  decide +kernel

lemma isFinite_largest : (Scalar.largest : Float32).isFinite = true := by decide +kernel

/-- No finite number has a place behind it. -/
lemma place_le_largest (hx : x.isFinite = true) : place x ≤ place Scalar.largest := by
  have hcanonical := canonical_unpack x
  have hfinite : x.toModel.unpack.isFinite = true := hx
  rw [place_largest, place]
  cases hu : x.toModel.unpack with
  | notANumber | infinity s =>
    rw [hu] at hfinite
    cases hfinite
  | zero s => cases s <;> decide
  | finite s m e hm =>
    have he := exponent_le hu
    rw [hu] at hcanonical
    have hm' : m < 2 ^ 24 := hcanonical.1
    cases s with
    | negative => simp [floatPlace, Prod.Lex.toLex_le_toLex]
    | positive =>
      simp only [floatPlace, Prod.Lex.toLex_le_toLex, lt_self_iff_false, false_or, true_and]
      omega

/-- No other number has its place. -/
lemma eq_largest (h : place x = place Scalar.largest) : x = Scalar.largest := by
  have hpositive : floatPlace (.zero .positive) < place Scalar.largest := by
    rw [place_largest]
    decide
  exact (eq_of_unpack_eq (eq_of_floatPlace_eq hpositive h.symm)).symm

/-- The least of two numbers is the foremost. -/
lemma least_eq (hx : x.isNaN = false) (hy : y.isNaN = false) : Scalar.least x y = foremost place x y := by
  rw [Scalar.least, foremost, beq_self hx, if_pos rfl]
  simp only [lt_iff_place hy hx]

/-- The greatest of two numbers is the foremost in the reverse order. -/
lemma greatest_eq (hx : x.isNaN = false) (hy : y.isNaN = false) :
    Scalar.greatest x y = foremost (OrderDual.toDual ∘ place) x y := by
  rw [Scalar.greatest, foremost, beq_self hx, if_pos rfl]
  simp only [lt_iff_place hx hy, Function.comp_apply, OrderDual.toDual_lt_toDual]

end Single

/-! ## Bounds of finite numbers -/

/-- No finite number comes after the start, and no other is at its place. -/
structure StartsBounds {κ : Type} [LinearOrder κ] (place : Float32 → κ) (start : Float32) : Prop where
  isFinite : start.isFinite = true
  place_le : ∀ x : Float32, x.isFinite = true → place x ≤ place start
  eq_start : ∀ x : Float32, place x = place start → x = start

/-- Least values may start from the largest number. -/
lemma startsBounds_largest : StartsBounds Single.place Scalar.largest :=
  ⟨Single.isFinite_largest, fun _ => Single.place_le_largest, fun _ => Single.eq_largest⟩

/-- Greatest values may start from its negative. -/
lemma startsBounds_neg_largest : StartsBounds (OrderDual.toDual ∘ Single.place) (-Scalar.largest) where
  isFinite := Single.isFinite_neg Single.isFinite_largest
  place_le x hx := by
    have h := Single.place_le_largest (Single.isFinite_neg hx)
    rw [Single.place_neg] at h
    rw [Function.comp_apply, Function.comp_apply, OrderDual.toDual_le_toDual, Single.place_neg]
    exact neg_le.mp h
  eq_start x hx := by
    have h : Single.place (-x) = Single.place Scalar.largest := by
      rw [Single.place_neg, OrderDual.toDual.injective hx, Single.place_neg, neg_neg]
    rw [← Single.eq_largest h, Single.neg_neg]

namespace StartsBounds

variable {κ : Type} [LinearOrder κ] {place : Float32 → κ} {start x : Float32} {xs ys : List Float32}
  (h : StartsBounds place start)
include h

/-- Any finite number comes before the start. -/
lemma foremost_start (hx : x.isFinite = true) : foremost place start x = x := by
  rcases (h.place_le x hx).lt_or_eq with hlt | heq
  · exact if_pos hlt
  · rw [foremost_eq_left heq.ge]
    exact (h.eq_start x heq).symm

/-- Of some finite numbers one is the bound. -/
lemma foldl_mem (hxs : ∀ x ∈ xs, x.isFinite = true) (hne : xs ≠ []) : xs.foldl (foremost place) start ∈ xs := by
  rcases foldl_foremost_eq_or_mem place start xs with hstart | hmem
  · obtain ⟨x, hx⟩ := List.exists_mem_of_ne_nil xs hne
    have hle := (place_foldl_foremost_le place start xs).2 x hx
    rw [hstart] at hle ⊢
    rwa [← h.eq_start x (le_antisymm (h.place_le x (hxs x hx)) hle)]
  · exact hmem

/-- The foremost of finite numbers is finite, since the start is. -/
lemma isFinite_foldl (hxs : ∀ x ∈ xs, x.isFinite = true) : (xs.foldl (foremost place) start).isFinite = true := by
  cases xs with
  | nil => exact h.isFinite
  | cons x xs => exact hxs _ (h.foldl_mem hxs (List.cons_ne_nil x xs))

/-- The foremost of two lists is the foremost of what is foremost in each. -/
lemma foldl_append (hxs : ∀ x ∈ xs, x.isFinite = true) :
    (xs ++ ys).foldl (foremost place) start =
      foremost place (xs.foldl (foremost place) start) (ys.foldl (foremost place) start) := by
  have hend : foremost place (xs.foldl (foremost place) start) start = xs.foldl (foremost place) start :=
    foremost_eq_left (h.place_le _ (h.isFinite_foldl hxs))
  have hassoc : ys.foldl (foremost place) (foremost place (xs.foldl (foremost place) start) start) =
      foremost place (xs.foldl (foremost place) start) (ys.foldl (foremost place) start) := List.foldl_assoc
  rw [List.foldl_append, ← hassoc, hend]

/-- The bound is the first number if no other comes before it. -/
lemma foldl_eq_head (hx : x.isFinite = true) (hle : ∀ y ∈ xs, place x ≤ place y) :
    (x :: xs).foldl (foremost place) start = x := by
  rw [List.foldl_cons, h.foremost_start hx]
  exact foldl_foremost_eq_start hle

end StartsBounds

/-- Of two numbers the foremost is kept. -/
def KeepsForemost {κ : Type} [LinearOrder κ] (place : Float32 → κ) (keep : Float32 → Float32 → Float32) : Prop :=
  ∀ x y : Float32, x.isNaN = false → y.isNaN = false → keep x y = foremost place x y

/-- Least values keep the foremost of two numbers. -/
lemma keepsForemost_least : KeepsForemost Single.place Scalar.least := fun _ _ => Single.least_eq

/-- Greatest values do so in the reverse order. -/
lemma keepsForemost_greatest : KeepsForemost (OrderDual.toDual ∘ Single.place) Scalar.greatest :=
  fun _ _ => Single.greatest_eq

namespace KeepsForemost

variable {κ : Type} [LinearOrder κ] {place : Float32 → κ} {keep : Float32 → Float32 → Float32}
  (hkeep : KeepsForemost place keep)
include hkeep

/-- What is kept of two numbers is a number. -/
lemma isNaN_eq_false {x y : Float32} (hx : x.isNaN = false) (hy : y.isNaN = false) : (keep x y).isNaN = false := by
  rw [hkeep x y hx hy]
  rcases foremost_eq_or place x y with h | h
  · rw [h, hx]
  · rw [h, hy]

/-- Keeping one of two along a list keeps the foremost of the list. -/
lemma foldl_eq {xs : List Float32} (hxs : ∀ x ∈ xs, x.isNaN = false) {s : Float32} (hs : s.isNaN = false) :
    xs.foldl keep s = xs.foldl (foremost place) s := by
  induction xs generalizing s with
  | nil => rfl
  | cons x xs ih =>
    have hx := hxs x List.mem_cons_self
    rw [List.foldl_cons, List.foldl_cons, ← hkeep s x hs hx]
    exact ih (fun y hy => hxs y (List.mem_cons_of_mem x hy)) (hkeep.isNaN_eq_false hs hx)

/-- Keeping one of three numbers keeps the foremost, whichever are compared first. -/
lemma keep_keep {x y z : Float32} (hx : x.isNaN = false) (hy : y.isNaN = false) (hz : z.isNaN = false) :
    keep (keep x y) z = foremost place x (foremost place y z) := by
  have hassoc : foremost place (foremost place x y) z = foremost place x (foremost place y z) :=
    Std.Associative.assoc x y z
  rw [hkeep _ z (hkeep.isNaN_eq_false hx hy) hz, hkeep x y hx hy, hassoc]

end KeepsForemost

/-! ## Boxes of points -/

namespace Box

variable {b c : Box Float32} {ps qs : List (Vec3 Float32)}

/-- Boxes are equal if their bounds are along each axis. -/
lemma ext_along (hmin : ∀ a, b.min.along a = c.min.along a) (hmax : ∀ a, b.max.along a = c.max.along a) : b = c := by
  obtain ⟨⟨_, _, _⟩, ⟨_, _, _⟩⟩ := b
  obtain ⟨⟨_, _, _⟩, ⟨_, _, _⟩⟩ := c
  rw [Axis.forall_iff] at hmin hmax
  simp only [Vec3.along] at hmin hmax
  simp [hmin, hmax]

/-- The coordinates of some points along an axis. -/
def coordinates (ps : List (Vec3 Float32)) (a : Axis) : List Float32 := ps.map (·.along a)

/-- A box grows along each axis by the coordinates of the points alone. -/
lemma along_foldl_expand (b : Box Float32) (ps : List (Vec3 Float32)) (a : Axis) :
    (ps.foldl expand b).min.along a = (coordinates ps a).foldl Scalar.least (b.min.along a) ∧
      (ps.foldl expand b).max.along a = (coordinates ps a).foldl Scalar.greatest (b.max.along a) := by
  induction ps generalizing b with
  | nil => exact ⟨rfl, rfl⟩
  | cons p ps ih =>
    obtain ⟨hmin, hmax⟩ := ih (b.expand p)
    rw [List.foldl_cons, hmin, hmax]
    cases a <;> exact ⟨rfl, rfl⟩

/-- The coordinates of finite points are finite. -/
lemma isFinite_coordinates (hps : ∀ p ∈ ps, p.Finite) {a : Axis} : ∀ x ∈ coordinates ps a, x.isFinite = true := by
  intro x hx
  obtain ⟨p, hp, rfl⟩ := List.mem_map.mp hx
  exact hps p hp a

/-- The lower bound is the least coordinate. -/
lemma min_ofPoints (hps : ∀ p ∈ ps, p.Finite) (a : Axis) :
    (ofPoints ps).min.along a = (coordinates ps a).foldl (foremost Single.place) Scalar.largest := by
  have hstart : (empty : Box Float32).min.along a = Scalar.largest := by cases a <;> rfl
  rw [ofPoints, (along_foldl_expand _ _ a).1, hstart]
  exact keepsForemost_least.foldl_eq (fun x hx => Single.isNaN_of_isFinite (isFinite_coordinates hps x hx))
    (Single.isNaN_of_isFinite Single.isFinite_largest)

/-- The upper bound is the greatest coordinate. -/
lemma max_ofPoints (hps : ∀ p ∈ ps, p.Finite) (a : Axis) :
    (ofPoints ps).max.along a =
      (coordinates ps a).foldl (foremost (OrderDual.toDual ∘ Single.place)) (-Scalar.largest) := by
  have hstart : (empty : Box Float32).max.along a = -Scalar.largest := by cases a <;> rfl
  rw [ofPoints, (along_foldl_expand _ _ a).2, hstart]
  exact keepsForemost_greatest.foldl_eq (fun x hx => Single.isNaN_of_isFinite (isFinite_coordinates hps x hx))
    (Single.isNaN_of_isFinite startsBounds_neg_largest.isFinite)

/-- Each bound of the box is a coordinate of a point, and no point lies beyond it. -/
structure Tight (b : Box Float32) (ps : List (Vec3 Float32)) : Prop where
  within : ∀ p ∈ ps, ∀ a, b.min.along a ≤ p.along a ∧ p.along a ≤ b.max.along a
  least : ∀ a, ∃ p ∈ ps, p.along a = b.min.along a
  greatest : ∀ a, ∃ p ∈ ps, p.along a = b.max.along a

/-- The box of finite points is tight. -/
theorem ofPoints_tight (hps : ∀ p ∈ ps, p.Finite) (hne : ps ≠ []) : (ofPoints ps).Tight ps := by
  have hmap : ∀ a, coordinates ps a ≠ [] := fun a => by simpa [coordinates] using hne
  have hleast : ∀ a, (ofPoints ps).min.along a ∈ coordinates ps a := by
    intro a
    rw [min_ofPoints hps]
    exact startsBounds_largest.foldl_mem (isFinite_coordinates hps) (hmap a)
  have hgreatest : ∀ a, (ofPoints ps).max.along a ∈ coordinates ps a := by
    intro a
    rw [max_ofPoints hps]
    exact startsBounds_neg_largest.foldl_mem (isFinite_coordinates hps) (hmap a)
  have hnumber : ∀ {a x}, x ∈ coordinates ps a → x.isNaN = false := fun hx =>
    Single.isNaN_of_isFinite (isFinite_coordinates hps _ hx)
  refine ⟨?_, fun a => List.mem_map.mp (hleast a), fun a => List.mem_map.mp (hgreatest a)⟩
  intro p hp a
  have hmem : p.along a ∈ coordinates ps a := List.mem_map_of_mem hp
  rw [Single.le_iff_place (hnumber (hleast a)) (hnumber hmem),
    Single.le_iff_place (hnumber hmem) (hnumber (hgreatest a)), min_ofPoints hps, max_ofPoints hps]
  exact ⟨(place_foldl_foremost_le _ _ _).2 _ hmem,
    OrderDual.toDual_le_toDual.mp ((place_foldl_foremost_le (OrderDual.toDual ∘ Single.place) _ _).2 _ hmem)⟩

/-- A tight box is not empty. -/
lemma Tight.isEmpty (h : b.Tight ps) (hps : ∀ p ∈ ps, p.Finite) : b.isEmpty = false := by
  have hnumeric : b.Numeric := by
    intro a
    obtain ⟨p, hp, hmin⟩ := h.least a
    obtain ⟨q, hq, hmax⟩ := h.greatest a
    rw [← hmin, ← hmax]
    exact ⟨Single.isNaN_of_isFinite (hps p hp a), Single.isNaN_of_isFinite (hps q hq a)⟩
  rw [isEmpty_eq_false_iff hnumeric]
  intro a
  obtain ⟨p, hp, -⟩ := h.least a
  exact Single.le_trans (h.within p hp a).1 (h.within p hp a).2

/-- The two bounds of equal coordinates are the same, also if the coordinates are zeros with different signs. -/
lemma min_eq_max (hps : ∀ p ∈ ps, p.Finite) (hne : ps ≠ []) {a : Axis}
    (h : (ofPoints ps).max.along a ≤ (ofPoints ps).min.along a) :
    (ofPoints ps).min.along a = (ofPoints ps).max.along a := by
  have hwithin := (ofPoints_tight hps hne).within
  rw [min_ofPoints hps, max_ofPoints hps]
  obtain ⟨p, ps, rfl⟩ := List.exists_cons_of_ne_nil hne
  have hp := hwithin p List.mem_cons_self a
  have hplace : ∀ x ∈ coordinates ps a, Single.place (p.along a) = Single.place x := by
    intro x hx
    obtain ⟨q, hq, rfl⟩ := List.mem_map.mp hx
    have hq' := hwithin q (List.mem_cons_of_mem p hq) a
    have hnp := Single.isNaN_of_isFinite (hps p List.mem_cons_self a)
    have hnq := Single.isNaN_of_isFinite (hps q (List.mem_cons_of_mem p hq) a)
    apply le_antisymm
    · exact (Single.le_iff_place hnp hnq).mp (Single.le_trans hp.2 (Single.le_trans h hq'.1))
    · exact (Single.le_iff_place hnq hnp).mp (Single.le_trans hq'.2 (Single.le_trans h hp.1))
  have hfinite := hps p List.mem_cons_self a
  change (p.along a :: coordinates ps a).foldl _ _ = (p.along a :: coordinates ps a).foldl _ _
  rw [startsBounds_largest.foldl_eq_head hfinite fun x hx => (hplace x hx).le,
    startsBounds_neg_largest.foldl_eq_head hfinite fun x hx => OrderDual.toDual_le_toDual.mpr (hplace x hx).ge]

/-- A box grows by another one, through its two corners, along each axis. -/
lemma along_expand_expand (b c : Box Float32) (a : Axis) :
    ((b.expand c.min).expand c.max).min.along a =
        Scalar.least (Scalar.least (b.min.along a) (c.min.along a)) (c.max.along a) ∧
      ((b.expand c.min).expand c.max).max.along a =
        Scalar.greatest (Scalar.greatest (b.max.along a) (c.min.along a)) (c.max.along a) := by
  cases a <;> exact ⟨rfl, rfl⟩

/-- The bounds of the box of finite points are finite. -/
lemma finite_ofPoints (hps : ∀ p ∈ ps, p.Finite) : (ofPoints ps).Finite := by
  constructor
  · intro a
    rw [min_ofPoints hps]
    exact startsBounds_largest.isFinite_foldl (isFinite_coordinates hps)
  · intro a
    rw [max_ofPoints hps]
    exact startsBounds_neg_largest.isFinite_foldl (isFinite_coordinates hps)

/-- The box of two lists of points is the union of their boxes. -/
theorem ofPoints_append (hps : ∀ p ∈ ps, p.Finite) (hqs : ∀ q ∈ qs, q.Finite) :
    ofPoints (ps ++ qs) = (ofPoints ps).union (ofPoints qs) := by
  by_cases hne : qs = []
  · have hempty : (ofPoints [] : Box Float32).isEmpty = true := by decide +kernel
    rw [hne, List.append_nil, union, hempty, if_pos rfl]
  · have hboth : ∀ p ∈ ps ++ qs, p.Finite := fun p hp => (List.mem_append.mp hp).elim (hps p) (hqs p)
    have hcoordinates : ∀ a, coordinates (ps ++ qs) a = coordinates ps a ++ coordinates qs a := fun a => List.map_append
    have hb := (finite_ofPoints hps).numeric
    have hc := (finite_ofPoints hqs).numeric
    have hle : ∀ a, (ofPoints qs).min.along a ≤ (ofPoints qs).max.along a :=
      (isEmpty_eq_false_iff hc).mp ((ofPoints_tight hqs hne).isEmpty hqs)
    rw [union, (ofPoints_tight hqs hne).isEmpty hqs, if_neg Bool.false_ne_true]
    apply ext_along
    · intro a
      have hsecond : foremost Single.place ((ofPoints qs).min.along a) ((ofPoints qs).max.along a) =
          (ofPoints qs).min.along a := foremost_eq_left ((Single.le_iff_place (hc a).1 (hc a).2).mp (hle a))
      rw [(along_expand_expand _ _ a).1, keepsForemost_least.keep_keep (hb a).1 (hc a).1 (hc a).2, hsecond,
        min_ofPoints hboth, hcoordinates, startsBounds_largest.foldl_append (isFinite_coordinates hps),
        ← min_ofPoints hps, ← min_ofPoints hqs]
    · intro a
      have hsecond : foremost (OrderDual.toDual ∘ Single.place) ((ofPoints qs).min.along a)
          ((ofPoints qs).max.along a) = (ofPoints qs).max.along a := by
        -- The bounds are the same, or the greater one replaces the lesser.
        by_cases hmax : (ofPoints qs).max.along a ≤ (ofPoints qs).min.along a
        · rw [min_eq_max hqs hne hmax]
          exact foremost_eq_left le_rfl
        · rw [Single.le_iff_place (hc a).2 (hc a).1, not_le] at hmax
          exact if_pos hmax
      rw [(along_expand_expand _ _ a).2, keepsForemost_greatest.keep_keep (hb a).2 (hc a).1 (hc a).2, hsecond,
        max_ofPoints hboth, hcoordinates, startsBounds_neg_largest.foldl_append (isFinite_coordinates hps),
        ← max_ofPoints hps, ← max_ofPoints hqs]

end Box

end BuildingModel
