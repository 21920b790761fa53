import Mathlib

/-!
# Loops that turn to one side

A closed loop of points in the plane whose edges meet in common corners only, and which never turns to the right,
is convex: all its points lie to the left of every edge (`SimpleLoop.left_of_edge`).

The argument is the one by which the tangent of a simple closed curve turns exactly once. How often a sequence of
directions passes a half-line is counted by `crossing`. The count does not depend on the way as long as the
directions lie in a convex set without the origin (`crossing_add_crossing`). So it may be taken over the directions
from edge to edge, or over those from the lowest corner to all others: the differences of the points of two edges
that do not meet are such a set.
-/

namespace BuildingModel

namespace Plane

variable {v w a b c : ℚ × ℚ} {K : Set (ℚ × ℚ)}

/-- How far one direction lies to the left of another one. -/
def cross (v w : ℚ × ℚ) : ℚ := v.1 * w.2 - v.2 * w.1

/-- The direction leads up, or straight to the right. -/
def Upper (v : ℚ × ℚ) : Prop := 0 < v.2 ∨ v.2 = 0 ∧ 0 < v.1

instance : DecidablePred Upper := fun v => inferInstanceAs (Decidable (0 < v.2 ∨ v.2 = 0 ∧ 0 < v.1))

/-- What leads up does not lead down. -/
lemma Upper.nonneg (h : Upper v) : 0 ≤ v.2 := h.elim le_of_lt fun h => h.1.ge

/-- What does not lead up leads down, or straight to the left. -/
lemma not_upper_iff : ¬ Upper v ↔ v.2 < 0 ∨ v.2 = 0 ∧ v.1 ≤ 0 := by
  rw [Upper]
  constructor
  · intro h
    push Not at h
    rcases h.1.lt_or_eq with hlt | heq
    · exact .inl hlt
    · exact .inr ⟨heq, h.2 heq⟩
  · rintro (h | ⟨h, h'⟩) (hv | ⟨hv, hv'⟩) <;> linarith

lemma nonpos_of_not_upper (h : ¬ Upper v) : v.2 ≤ 0 := (not_upper_iff.mp h).elim le_of_lt fun h => h.1.le

/-- Of a direction and its opposite, one leads up. -/
lemma upper_neg_of_not_upper (hv : v ≠ 0) (h : ¬ Upper v) : Upper (-v) := by
  rcases not_upper_iff.mp h with h | ⟨h, h'⟩
  · exact .inl (by simpa using h)
  · refine .inr ⟨by simpa using h, ?_⟩
    have hne : v.1 ≠ 0 := fun h₁ => hv (Prod.ext h₁ h)
    simpa using h'.lt_of_ne hne

/-- Not both of them do. -/
lemma not_upper_neg (h : Upper v) : ¬ Upper (-v) := by
  rw [not_upper_iff]
  rcases h with h | ⟨h, h'⟩
  · exact .inl (by simpa using h)
  · exact .inr ⟨by simpa using h, by simpa using h'.le⟩

/-! ## Crossings of the half-line to the right -/

/-- One if the direction turns to the left over the half-line to the right, minus one if it turns back. -/
def crossing (v w : ℚ × ℚ) : ℤ :=
  if Upper v ↔ Upper w then 0
  else if Upper w then if 0 < cross v w then 1 else 0
  else if cross v w < 0 then -1 else 0

/-- One for directions that lead up. -/
def level (v : ℚ × ℚ) : ℤ := if Upper v then 1 else 0

/-- Swapping two directions changes the side. -/
lemma cross_swap (v w : ℚ × ℚ) : cross w v = - cross v w := by
  rw [cross, cross]
  ring

/-- The segment between two points passes the horizontal axis on the side that the turn between them tells. -/
lemma exists_axis_mem (hK : Convex ℚ K) (hv : v ∈ K) (hw : w ∈ K) (hlow : ¬ Upper v) (hup : Upper w) :
    ∃ x, (x, 0) ∈ K ∧ (0 < cross v w → 0 < x) ∧ (cross v w ≤ 0 → x ≤ 0) := by
  have hv₂ := nonpos_of_not_upper hlow
  have hw₂ := hup.nonneg
  rcases (sub_nonneg.mpr (hv₂.trans hw₂)).eq_or_lt with hflat | hδ
  · -- Both points lie on the axis, and the lower one is the one on the left.
    have hv0 : v.2 = 0 := by linarith
    have hw0 : w.2 = 0 := by linarith
    have hx : v.1 ≤ 0 := by
      rcases not_upper_iff.mp hlow with h | h
      · exact absurd hv0 h.ne
      · exact h.2
    refine ⟨v.1, by rwa [← hv0], fun h => ?_, fun _ => hx⟩
    simp [cross, hv0, hw0] at h
  · refine ⟨cross v w / (w.2 - v.2), ?_, fun h => div_pos h hδ, fun h => div_nonpos_of_nonpos_of_nonneg h hδ.le⟩
    have hmem := hK hv hw (div_nonneg hw₂ hδ.le) (div_nonneg (neg_nonneg.mpr hv₂) hδ.le)
      (by field_simp; ring)
    convert hmem using 1
    ext
    · simp only [cross, Prod.fst_add, Prod.smul_fst, smul_eq_mul]
      field_simp
      ring
    · simp only [Prod.snd_add, Prod.smul_snd, smul_eq_mul]
      field_simp
      ring

/-- In a convex set without the origin, the axis is passed on one side only. -/
lemma cross_pos_of_convex (hK : Convex ℚ K) (h0 : (0 : ℚ × ℚ) ∉ K) {v' w' : ℚ × ℚ} (hv : v ∈ K) (hw : w ∈ K)
    (hlow : ¬ Upper v) (hup : Upper w) (hcross : 0 < cross v w) (hv' : v' ∈ K) (hw' : w' ∈ K) (hlow' : ¬ Upper v')
    (hup' : Upper w') : 0 < cross v' w' := by
  by_contra hle
  obtain ⟨x, hx, hpos, -⟩ := exists_axis_mem hK hv hw hlow hup
  obtain ⟨x', hx', -, hneg⟩ := exists_axis_mem hK hv' hw' hlow' hup'
  have hpos := hpos hcross
  have hneg := hneg (not_lt.mp hle)
  have hδ : 0 < x - x' := by linarith
  have hmem := hK hx hx' (div_nonneg (neg_nonneg.mpr hneg) hδ.le) (div_nonneg hpos.le hδ.le) (by field_simp; ring)
  apply h0
  convert hmem using 1
  ext
  · simp only [Prod.fst_add, Prod.smul_fst, smul_eq_mul, Prod.fst_zero]
    field_simp
    ring
  · simp

/-- In a convex set without the origin, crossings count the changes of the level, or nothing. -/
lemma exists_crossing_eq (hK : Convex ℚ K) (h0 : (0 : ℚ × ℚ) ∉ K) :
    ∃ k : ℤ, ∀ v ∈ K, ∀ w ∈ K, crossing v w = k * (level w - level v) := by
  by_cases hcross : ∃ v ∈ K, ∃ w ∈ K, ¬ Upper v ∧ Upper w ∧ 0 < cross v w
  · obtain ⟨v₀, hv₀, w₀, hw₀, hlow₀, hup₀, hpos₀⟩ := hcross
    have hpos : ∀ v ∈ K, ∀ w ∈ K, ¬ Upper v → Upper w → 0 < cross v w := fun v hv w hw hlow hup =>
      cross_pos_of_convex hK h0 hv₀ hw₀ hlow₀ hup₀ hpos₀ hv hw hlow hup
    refine ⟨1, fun v hv w hw => ?_⟩
    by_cases hupv : Upper v <;> by_cases hupw : Upper w
    · simp [crossing, level, hupv, hupw]
    · have := hpos w hw v hv hupw hupv
      rw [cross_swap] at this
      simp [crossing, level, hupv, hupw, neg_pos.mp this]
    · simp [crossing, level, hupv, hupw, hpos v hv w hw hupv hupw]
    · simp [crossing, level, hupv, hupw]
  · push Not at hcross
    refine ⟨0, fun v hv w hw => ?_⟩
    by_cases hupv : Upper v <;> by_cases hupw : Upper w
    · simp [crossing, hupv, hupw]
    · have := hcross w hw v hv hupw hupv
      rw [cross_swap, neg_nonpos] at this
      simp [crossing, hupv, hupw, this.not_gt]
    · have := hcross v hv w hw hupv hupw
      simp [crossing, hupv, hupw, this.not_gt]
    · simp [crossing, hupv, hupw]

/-- In a convex set without the origin, crossings add up along the way. -/
lemma crossing_add_crossing (hK : Convex ℚ K) (h0 : (0 : ℚ × ℚ) ∉ K) (ha : a ∈ K) (hb : b ∈ K) (hc : c ∈ K) :
    crossing a b + crossing b c = crossing a c := by
  obtain ⟨k, hk⟩ := exists_crossing_eq hK h0
  rw [hk a ha b hb, hk b hb c hc, hk a ha c hc]
  ring

/-- Two directions that are not opposite, and neither of which is zero. -/
def Bends (v w : ℚ × ℚ) : Prop := ∀ x y : ℚ, 0 ≤ x → 0 ≤ y → x • v + y • w = 0 → x = 0 ∧ y = 0

/-- The way from one direction to another one leads over their sum, unless they are opposite. -/
lemma crossing_fork (h : Bends v w) :
    crossing v (v + w) + crossing (v + w) w = crossing v w := by
  have hK : Convex ℚ {z | ∃ x y : ℚ, 0 ≤ x ∧ 0 ≤ y ∧ 0 < x + y ∧ x • v + y • w = z} := by
    rintro _ ⟨x, y, hx, hy, hxy, rfl⟩ _ ⟨x', y', hx', hy', hxy', rfl⟩ α β hα hβ hαβ
    refine ⟨α * x + β * x', α * y + β * y', by positivity, by positivity, ?_, by module⟩
    rcases hα.eq_or_lt with rfl | hα
    · rw [zero_add] at hαβ
      simpa [hαβ] using hxy'
    · have := mul_pos hα hxy
      have := mul_nonneg hβ hxy'.le
      linarith
  refine crossing_add_crossing hK ?_ ⟨1, 0, by simp⟩ ⟨1, 1, by simp⟩ ⟨0, 1, by simp⟩
  rintro ⟨x, y, hx, hy, hxy, hzero⟩
  obtain ⟨rfl, rfl⟩ := h x y hx hy hzero
  simp at hxy

/-- Around the differences of the points of two segments that do not meet, both ways count the same. -/
lemma crossing_cell {d e f : ℚ × ℚ}
    (h : ∀ s t : ℚ, 0 ≤ s → s ≤ 1 → 0 ≤ t → t ≤ 1 → d + t • f - s • e ≠ 0) :
    crossing d (d + f) + crossing (d + f) (d + f - e) = crossing d (d - e) + crossing (d - e) (d + f - e) := by
  have hK : Convex ℚ {z | ∃ s t : ℚ, (0 ≤ s ∧ s ≤ 1) ∧ (0 ≤ t ∧ t ≤ 1) ∧ d + t • f - s • e = z} := by
    rintro _ ⟨s, t, ⟨hs, hs'⟩, ⟨ht, ht'⟩, rfl⟩ _ ⟨s₁, t₁, ⟨hs₁, hs₁'⟩, ⟨ht₁, ht₁'⟩, rfl⟩ α β hα hβ hαβ
    refine ⟨α * s + β * s₁, α * t + β * t₁, ⟨by positivity, ?_⟩, ⟨by positivity, ?_⟩, ?_⟩
    · nlinarith
    · nlinarith
    · rw [show β = 1 - α by linarith]
      module
  have h0 : (0 : ℚ × ℚ) ∉ {z | ∃ s t : ℚ, (0 ≤ s ∧ s ≤ 1) ∧ (0 ≤ t ∧ t ≤ 1) ∧ d + t • f - s • e = z} := by
    rintro ⟨s, t, hs, ht, hzero⟩
    exact h s t hs.1 hs.2 ht.1 ht.2 hzero
  rw [crossing_add_crossing hK h0, crossing_add_crossing hK h0]
  · exact ⟨0, 0, by simp⟩
  · exact ⟨1, 0, by simp⟩
  · exact ⟨1, 1, by simp⟩
  · exact ⟨0, 0, by simp⟩
  · exact ⟨0, 1, by simp⟩
  · exact ⟨1, 1, by simp⟩

/-- Neither direction is zero. -/
lemma Bends.left_ne_zero (h : Bends v w) : v ≠ 0 := by
  intro hzero
  exact one_ne_zero (h 1 0 one_pos.le (le_refl 0) (by rw [hzero, smul_zero, zero_smul, add_zero])).1

/-- Opposite directions bend alike. -/
lemma Bends.neg (h : Bends v w) : Bends (-v) (-w) := by
  intro x y hx hy hzero
  apply h x y hx hy
  rw [← neg_eq_zero, ← hzero]
  module

/-- A direction that leads down and one that leads up are opposite if there is no turn between them. -/
lemma Bends.cross_ne_zero (h : Bends v w) (hlow : ¬ Upper v) (hup : Upper w) : cross v w ≠ 0 := by
  intro hzero
  rw [cross] at hzero
  rcases not_upper_iff.mp hlow with hv₂ | ⟨hv₂, hv₁⟩
  · have hsum : w.2 • v + (-v.2) • w = 0 := by
      ext
      · simp only [Prod.fst_add, Prod.smul_fst, smul_eq_mul, Prod.fst_zero]
        linarith
      · simp only [Prod.snd_add, Prod.smul_snd, smul_eq_mul, Prod.snd_zero]
        ring
    linarith [(h _ _ hup.nonneg (by linarith) hsum).2]
  · -- Both directions are horizontal.
    have hne : v.1 ≠ 0 := fun hv₁ => h.left_ne_zero (Prod.ext hv₁ hv₂)
    rw [hv₂, zero_mul, sub_zero] at hzero
    have hw₂ : w.2 = 0 := (mul_eq_zero.mp hzero).resolve_left hne
    have hw₁ : 0 < w.1 := by
      rcases hup with hup | hup
      · exact absurd hw₂ hup.ne'
      · exact hup.2
    have hsum : w.1 • v + (-v.1) • w = 0 := by
      ext
      · simp only [Prod.fst_add, Prod.smul_fst, smul_eq_mul, Prod.fst_zero]
        ring
      · simp only [Prod.snd_add, Prod.smul_snd, smul_eq_mul, Prod.snd_zero, hv₂, hw₂, mul_zero, add_zero]
    linarith [(h _ _ hw₁.le (by linarith) hsum).1]

/-- A turn to the left from below to above crosses the half-line. -/
lemma Bends.crossing_eq_one (h : Bends v w) (hleft : 0 ≤ cross v w) (hlow : ¬ Upper v) (hup : Upper w) :
    crossing v w = 1 := by
  simp [crossing, hlow, hup, hleft.lt_of_ne' (h.cross_ne_zero hlow hup)]

/-- A turn to the left does not cross it backwards. -/
lemma crossing_nonneg (hleft : 0 ≤ cross v w) : 0 ≤ crossing v w := by
  unfold crossing
  split_ifs <;> linarith

/-! ## Other coordinates -/

/-- Coordinates in which a direction leads straight to the right. -/
def turned (d : ℚ × ℚ) : ℚ × ℚ →ₗ[ℚ] ℚ × ℚ where
  toFun v := (d.1 * v.1 + d.2 * v.2, cross d v)
  map_add' v w := by
    ext
    · simp only [Prod.fst_add, Prod.snd_add]
      ring
    · simp only [cross, Prod.fst_add, Prod.snd_add]
      ring
  map_smul' x v := by
    ext
    · simp only [Prod.smul_fst, Prod.smul_snd, smul_eq_mul, RingHom.id_apply]
      ring
    · simp only [cross, Prod.smul_fst, Prod.smul_snd, smul_eq_mul, RingHom.id_apply]
      ring

/-- A direction has a positive length. -/
lemma normSq_pos {d : ℚ × ℚ} (hd : d ≠ 0) : 0 < d.1 * d.1 + d.2 * d.2 := by
  have h₁ := mul_self_nonneg d.1
  have h₂ := mul_self_nonneg d.2
  refine (add_nonneg h₁ h₂).lt_of_ne' fun hzero => hd ?_
  exact Prod.ext (mul_self_eq_zero.mp (by linarith)) (mul_self_eq_zero.mp (by linarith))

/-- Turning the plane keeps the sides, up to the square of the length. -/
lemma cross_turned (d v w : ℚ × ℚ) : cross (turned d v) (turned d w) = (d.1 * d.1 + d.2 * d.2) * cross v w := by
  simp only [turned, LinearMap.coe_mk, AddHom.coe_mk, cross]
  ring

/-- Turning the plane loses nothing. -/
lemma turned_injective {d : ℚ × ℚ} (hd : d ≠ 0) : Function.Injective (turned d) := by
  rw [injective_iff_map_eq_zero]
  intro v hv
  have h₁ : d.1 * v.1 + d.2 * v.2 = 0 := congrArg Prod.fst hv
  have h₂ : d.1 * v.2 - d.2 * v.1 = 0 := congrArg Prod.snd hv
  have hpos := normSq_pos hd
  ext
  · have : (d.1 * d.1 + d.2 * d.2) * v.1 = 0 := by linear_combination d.1 * h₁ - d.2 * h₂
    exact (mul_eq_zero.mp this).resolve_left hpos.ne'
  · have : (d.1 * d.1 + d.2 * d.2) * v.2 = 0 := by linear_combination d.2 * h₁ + d.1 * h₂
    exact (mul_eq_zero.mp this).resolve_left hpos.ne'

/-- The plane seen from behind. -/
def mirrored : ℚ × ℚ →ₗ[ℚ] ℚ × ℚ := LinearMap.prodMap LinearMap.id (-LinearMap.id)

/-- Looking at the plane from behind loses nothing. -/
lemma mirrored_injective : Function.Injective mirrored := by
  intro v w h
  have h₁ : (mirrored v).1 = (mirrored w).1 := congrArg Prod.fst h
  have h₂ : (mirrored v).2 = (mirrored w).2 := congrArg Prod.snd h
  exact Prod.ext h₁ (neg_injective h₂)

/-- From behind, left and right are swapped. -/
lemma cross_mirrored (v w : ℚ × ℚ) : cross (mirrored v) (mirrored w) = -cross v w := by
  change v.1 * -w.2 - -v.2 * w.1 = -(v.1 * w.2 - v.2 * w.1)
  ring

/-! ## Simple loops -/

/-- From one point of a sequence to the next. -/
def edge (p : ℕ → ℚ × ℚ) (i : ℕ) : ℚ × ℚ := p (i + 1) - p i

/-- A closed loop of `n` points. Edges that are not next to each other have no common point, and no edge leads back
over the one before it. -/
structure SimpleLoop (n : ℕ) (p : ℕ → ℚ × ℚ) : Prop where
  period : ∀ i, p (i + n) = p i
  apart : ∀ i j, i + 1 < j → j + 1 < i + n → ∀ s t : ℚ, 0 ≤ s → s ≤ 1 → 0 ≤ t → t ≤ 1 →
    p i + s • edge p i ≠ p j + t • edge p j
  bends : ∀ i, Bends (edge p i) (edge p (i + 1))

variable {n : ℕ} {p : ℕ → ℚ × ℚ}

/-- The crossings of the directions from one point to those after it. -/
def rowCrossings (p : ℕ → ℚ × ℚ) (i j : ℕ) : ℤ :=
  ∑ k ∈ Finset.Ico (i + 1) j, crossing (p k - p i) (p (k + 1) - p i)

/-- One more direction adds its crossing. -/
lemma rowCrossings_succ {i j : ℕ} (hij : i + 1 ≤ j) :
    rowCrossings p i (j + 1) = rowCrossings p i j + crossing (p j - p i) (p (j + 1) - p i) :=
  Finset.sum_Ico_succ_top hij _

namespace SimpleLoop

/-- The crossings from one point differ from those from the next one by the crossing between the two edges. -/
lemma rowCrossings_add (hp : SimpleLoop n p) {i j : ℕ} (hij : i + 2 ≤ j) (hj : j + 1 ≤ i + n) :
    rowCrossings p i j + crossing (p j - p i) (p j - p (i + 1)) =
      crossing (edge p i) (edge p (i + 1)) + rowCrossings p (i + 1) j := by
  induction j, hij using Nat.le_induction with
  | base =>
    have hsum : p (i + 2) - p i = edge p i + edge p (i + 1) := by simp [edge]
    rw [rowCrossings_succ (le_refl _), hsum]
    simp only [rowCrossings, Finset.Ico_self, Finset.sum_empty, zero_add, add_zero]
    exact crossing_fork (hp.bends i)
  | succ j hij ih =>
    have ih := ih (by omega)
    have hcell := crossing_cell (d := p j - p i) (e := edge p i) (f := edge p j) fun s t hs hs' ht ht' hzero =>
      hp.apart i j (by omega) (by omega) s t hs hs' ht ht' (by
        rw [← sub_eq_zero, ← neg_eq_zero, ← hzero]
        module)
    rw [show p j - p i + edge p j = p (j + 1) - p i by simp [edge],
      show p (j + 1) - p i - edge p i = p (j + 1) - p (i + 1) by simp [edge],
      show p j - p i - edge p i = p j - p (i + 1) by simp [edge]] at hcell
    rw [rowCrossings_succ (by omega), rowCrossings_succ (by omega)]
    linarith

/-- The loop comes back to its first point. -/
lemma closed (hp : SimpleLoop n p) : p n = p 0 := by
  have h := hp.period 0
  rwa [zero_add] at h

/-- It leaves this point as it did at first. -/
lemma edge_period (hp : SimpleLoop n p) : edge p n = edge p 0 := by
  rw [edge, edge, Nat.add_comm n 1, hp.period 1, hp.closed]

section Lowest

variable (hp : SimpleLoop n p) (hn : 3 ≤ n) (hmin : ∀ j, 0 < j → j < n → Upper (p j - p 0))
include hp hn hmin

/-- All directions to the lowest point lead down. So the crossings from edge to edge, but for the first edge, are
those of the directions from the second point. -/
lemma sum_crossing_tail :
    ∑ i ∈ Finset.Ico 1 (n - 1), crossing (edge p i) (edge p (i + 1)) = rowCrossings p 1 n := by
  have hdown : ∀ i, 0 < i → i < n → ¬ Upper (p n - p i) := by
    intro i hi hin
    rw [hp.closed, ← neg_sub]
    exact not_upper_neg (hmin i hi hin)
  have hpartial : ∀ i, 1 ≤ i → i ≤ n - 1 →
      ∑ k ∈ Finset.Ico 1 i, crossing (edge p k) (edge p (k + 1)) + rowCrossings p i n = rowCrossings p 1 n := by
    intro i hi
    induction i, hi using Nat.le_induction with
    | base =>
      intro _
      rw [Finset.Ico_self, Finset.sum_empty, zero_add]
    | succ i hi ih =>
      intro hin
      have hstrip := hp.rowCrossings_add (i := i) (j := n) (by omega) (by omega)
      have hflat : crossing (p n - p i) (p n - p (i + 1)) = 0 := by
        simp [crossing, hdown i (by omega) (by omega), hdown (i + 1) (by omega) (by omega)]
      rw [Finset.sum_Ico_succ_top hi]
      have ih := ih (by omega)
      linarith
  have hlast : rowCrossings p (n - 1) n = 0 := by
    rw [rowCrossings, Nat.sub_add_cancel (by omega), Finset.Ico_self, Finset.sum_empty]
  have htotal := hpartial (n - 1) (by omega) (le_refl _)
  rwa [hlast, add_zero] at htotal

/-- All directions from the lowest point lead up. So only the turn at this point counts on the way from the first
edge to the last one. -/
lemma sum_crossing_edge :
    ∑ i ∈ Finset.range (n - 1), crossing (edge p i) (edge p (i + 1)) = crossing (-edge p (n - 1)) (-edge p 0) := by
  have hfirst : rowCrossings p 0 (n - 1) = 0 := by
    refine Finset.sum_eq_zero fun k hk => ?_
    rw [Finset.mem_Ico] at hk
    simp [crossing, hmin k (by omega) (by omega), hmin (k + 1) (by omega) (by omega)]
  have hstrip := hp.rowCrossings_add (i := 0) (j := n - 1) (by omega) (by omega)
  have hsucc := rowCrossings_succ (p := p) (i := 1) (j := n - 1) (by omega)
  have hbends := hp.bends (n - 1)
  rw [Nat.sub_add_cancel (by omega)] at hsucc hbends
  rw [hp.edge_period] at hbends
  have hfork := crossing_fork hbends.neg
  have hv : -edge p (n - 1) = p (n - 1) - p 0 := by
    rw [edge, Nat.sub_add_cancel (by omega), hp.closed, neg_sub]
  have hw : -edge p 0 = p n - p 1 := by rw [edge, hp.closed, neg_sub]
  have hvw : p (n - 1) - p 0 + (p n - p 1) = p (n - 1) - p 1 := by
    rw [hp.closed]
    abel
  rw [hv, hw, hvw] at hfork
  have htail := hp.sum_crossing_tail hn hmin
  rw [hv, hw, Finset.range_eq_Ico, Finset.sum_eq_sum_Ico_succ_bot (by omega)]
  simp only [zero_add] at hstrip ⊢
  linarith

variable (hleft : ∀ i, 0 ≤ cross (edge p i) (edge p (i + 1)))
include hleft

/-- From the lowest point on, a loop that never turns to the right first goes up and then down. -/
lemma not_upper_succ {i : ℕ} (hi : i + 1 < n) (hlow : ¬ Upper (edge p i)) : ¬ Upper (edge p (i + 1)) := by
  intro hup
  have htotal : ∑ i ∈ Finset.range (n - 1), crossing (edge p i) (edge p (i + 1)) ≤ 0 := by
    have hlast := hleft (n - 1)
    rw [Nat.sub_add_cancel (by omega), hp.edge_period] at hlast
    have hcross : cross (-edge p (n - 1)) (-edge p 0) = cross (edge p (n - 1)) (edge p 0) := by
      simp only [cross, Prod.fst_neg, Prod.snd_neg, neg_mul_neg]
    have hdown : ¬ Upper (-edge p 0) := not_upper_neg (hmin 1 one_pos (by omega))
    rw [hp.sum_crossing_edge hn hmin, crossing, hcross, if_neg hdown]
    split_ifs <;> linarith
  have hone := Finset.single_le_sum (fun k _ => crossing_nonneg (hleft k)) (Finset.mem_range.mpr (by omega : i < n - 1))
  rw [(hp.bends i).crossing_eq_one (hleft i) hlow hup] at hone
  linarith

/-- An edge straight to the right starts at the height of the lowest point. -/
lemma height_eq_first {m : ℕ} (hm : m < n) (hflat : (edge p m).2 = 0) (hright : 0 < (edge p m).1) :
    (p m).2 = (p 0).2 := by
  have hup : ∀ j ≤ m, Upper (edge p j) := by
    intro j hj
    by_contra hlow
    have hdown : ∀ t, j ≤ t → t < n → ¬ Upper (edge p t) := by
      intro t ht
      induction t, ht using Nat.le_induction with
      | base => exact fun _ => hlow
      | succ t ht ih => exact fun htn => hp.not_upper_succ hn hmin hleft htn (ih (by omega))
    exact hdown m hj hm (.inr ⟨hflat, hright⟩)
  have hzero : ∀ j ≤ m, (edge p j).2 = 0 := by
    intro j hj
    by_contra hne
    -- An edge that rises is followed by edges that rise, as long as no edge leads down.
    have hrise : ∀ t, j ≤ t → t ≤ m → 0 < (edge p t).2 := by
      intro t ht
      induction t, ht using Nat.le_induction with
      | base => exact fun hj => (hup j hj).nonneg.lt_of_ne' hne
      | succ t ht ih =>
        intro htm
        have hpos := ih (by omega)
        rcases hup (t + 1) htm with hup | ⟨hup, hup'⟩
        · exact hup
        · have hturn := hleft t
          rw [cross, hup, mul_zero, zero_sub] at hturn
          have := mul_pos hpos hup'
          linarith
    exact (hrise m hj (le_refl m)).ne' hflat
  have hheight : ∀ j ≤ m, (p j).2 = (p 0).2 := by
    intro j
    induction j with
    | zero => exact fun _ => rfl
    | succ j ih =>
      intro hj
      have hstep := hzero j (by omega)
      rw [edge, Prod.snd_sub, sub_eq_zero] at hstep
      rw [hstep, ih (by omega)]
  exact hheight m (le_refl m)

end Lowest

/-! ## Convexity -/

/-- A loop may be entered at any of its points. -/
lemma shift (hp : SimpleLoop n p) (k : ℕ) : SimpleLoop n fun i => p (i + k) where
  period i := by
    rw [Nat.add_right_comm]
    exact hp.period (i + k)
  apart i j hij hj := by
    have h := hp.apart (i + k) (j + k) (by omega) (by omega)
    simpa only [edge, Nat.add_right_comm] using h
  bends i := by
    have h := hp.bends (i + k)
    simpa only [edge, Nat.add_right_comm] using h

/-- An injective linear map takes a loop to a loop. -/
lemma map (hp : SimpleLoop n p) {f : ℚ × ℚ →ₗ[ℚ] ℚ × ℚ} (hf : Function.Injective f) : SimpleLoop n (f ∘ p) where
  period i := congrArg f (hp.period i)
  apart i j hij hj s t hs hs' ht ht' h := by
    refine hp.apart i j hij hj s t hs hs' ht ht' (hf ?_)
    simpa [edge] using h
  bends i x y hx hy h := by
    refine hp.bends i x y hx hy (hf ?_)
    simpa [edge] using h

/-- The other points of a loop differ from its first one. -/
lemma ne_first (hp : SimpleLoop n p) {j : ℕ} (hj : 0 < j) (hjn : j < n) : p j ≠ p 0 := by
  intro heq
  rcases Nat.lt_or_ge (j + 1) n with hlast | hlast
  · rcases Nat.lt_or_ge 1 j with hfirst | hfirst
    · exact hp.apart 0 j (by omega) (by omega) 0 0 (le_refl 0) one_pos.le (le_refl 0) one_pos.le (by simp [heq])
    · obtain rfl : j = 1 := by omega
      exact (hp.bends 0).left_ne_zero (sub_eq_zero.mpr heq)
  · obtain rfl : n = j + 1 := by omega
    exact (hp.bends j).left_ne_zero (sub_eq_zero.mpr (hp.closed.trans heq.symm))

/-- One of the points is the lowest, and the first on its level. -/
lemma exists_lowest (hp : SimpleLoop n p) (hn : 0 < n) : ∃ k < n, ∀ j, ¬ Upper (p k - p j) := by
  have hnonempty : (Finset.range n).Nonempty := ⟨0, Finset.mem_range.mpr hn⟩
  obtain ⟨k, hk, hmin⟩ := Finset.exists_min_image (Finset.range n) (fun i => toLex ((p i).2, (p i).1)) hnonempty
  refine ⟨k, Finset.mem_range.mp hk, fun j hup => ?_⟩
  have hle := hmin (j % n) (Finset.mem_range.mpr (Nat.mod_lt j hn))
  rw [Function.Periodic.map_mod_nat hp.period, Prod.Lex.toLex_le_toLex] at hle
  rcases hup with hup | ⟨hup, hup'⟩
  · simp only [Prod.snd_sub, sub_pos] at hup
    rcases hle with hle | hle
    · exact absurd hle hup.not_gt
    · exact absurd hle.1 hup.ne'
  · simp only [Prod.snd_sub, Prod.fst_sub, sub_pos, sub_eq_zero] at hup hup'
    rcases hle with hle | hle
    · exact absurd hup hle.ne
    · exact absurd hle.2 hup'.not_ge

/-- Points and edges repeat along the loop. -/
lemma edge_mod (hp : SimpleLoop n p) {i j : ℕ} (hij : i % n = j % n) : p i = p j ∧ edge p i = edge p j := by
  have hedge : Function.Periodic (edge p) n := by
    intro i
    rw [edge, edge, Nat.add_right_comm, hp.period, hp.period]
  constructor
  · rw [← Function.Periodic.map_mod_nat hp.period i, hij, Function.Periodic.map_mod_nat hp.period]
  · rw [← hedge.map_mod_nat i, hij, hedge.map_mod_nat]

/-- If an edge of a loop that never turns to the right leads straight to the right, no point lies below it. -/
lemma height_le (hp : SimpleLoop n p) (hn : 3 ≤ n) (hleft : ∀ i, 0 ≤ cross (edge p i) (edge p (i + 1))) {i : ℕ}
    (hflat : (edge p i).2 = 0) (hright : 0 < (edge p i).1) (j : ℕ) : (p i).2 ≤ (p j).2 := by
  obtain ⟨k, hk, hlowest⟩ := hp.exists_lowest (by omega)
  -- The place of the edge, counted from the lowest point.
  have hplace : ((i + (n - k)) % n + k) % n = i % n := by
    rw [Nat.mod_add_mod, Nat.add_assoc, Nat.sub_add_cancel hk.le, Nat.add_mod_right]
  obtain ⟨hpoint, hedge⟩ := hp.edge_mod hplace
  have hshift : ∀ j, edge (fun i => p (i + k)) j = edge p (j + k) := by
    intro j
    simp only [edge, Nat.add_right_comm]
  have hmin : ∀ j, 0 < j → j < n → Upper (p (j + k) - p (0 + k)) := by
    intro j hj hjn
    rw [← neg_sub]
    refine upper_neg_of_not_upper (sub_ne_zero.mpr ((hp.shift k).ne_first hj hjn).symm) ?_
    rw [zero_add]
    exact hlowest (j + k)
  have hturns : ∀ j, 0 ≤ cross (edge (fun i => p (i + k)) j) (edge (fun i => p (i + k)) (j + 1)) := by
    intro j
    rw [hshift, hshift, Nat.add_right_comm]
    exact hleft (j + k)
  have hheight := (hp.shift k).height_eq_first hn hmin hturns (Nat.mod_lt (i + (n - k)) (by omega))
    (by rwa [hshift, hedge]) (by rwa [hshift, hedge])
  rw [hpoint, zero_add] at hheight
  have hle := nonpos_of_not_upper (hlowest j)
  rw [Prod.snd_sub] at hle
  linarith

/-- All points of a simple loop that never turns to the right lie to the left of every edge. -/
theorem left_of_edge (hp : SimpleLoop n p) (hn : 3 ≤ n) (hleft : ∀ i, 0 ≤ cross (edge p i) (edge p (i + 1)))
    (i j : ℕ) : 0 ≤ cross (edge p i) (p j - p i) := by
  have hd := (hp.bends i).left_ne_zero
  have hedge : ∀ k, edge (turned (edge p i) ∘ p) k = turned (edge p i) (edge p k) := fun k => (map_sub _ _ _).symm
  have hle := (hp.map (turned_injective hd)).height_le hn (i := i) (j := j) ?_ ?_ ?_
  · have hmap : cross (edge p i) (p j - p i) =
        ((turned (edge p i) ∘ p) j).2 - ((turned (edge p i) ∘ p) i).2 := by
      rw [← Prod.snd_sub, Function.comp_apply, Function.comp_apply, ← map_sub]
      rfl
    rw [hmap]
    exact sub_nonneg.mpr hle
  · intro k
    rw [hedge, hedge, cross_turned]
    exact mul_nonneg (normSq_pos hd).le (hleft k)
  · rw [hedge]
    change cross (edge p i) (edge p i) = 0
    rw [cross]
    ring
  · rw [hedge]
    exact normSq_pos hd

/-- All points of a simple loop that never turns to the left lie to the right of every edge. -/
theorem right_of_edge (hp : SimpleLoop n p) (hn : 3 ≤ n) (hright : ∀ i, cross (edge p i) (edge p (i + 1)) ≤ 0)
    (i j : ℕ) : cross (edge p i) (p j - p i) ≤ 0 := by
  have hedge : ∀ k, edge (mirrored ∘ p) k = mirrored (edge p k) := fun k => (map_sub _ _ _).symm
  have hleft := (hp.map mirrored_injective).left_of_edge hn (fun k => by
    rw [hedge, hedge, cross_mirrored]
    exact neg_nonneg.mpr (hright k)) i j
  rw [hedge, Function.comp_apply, Function.comp_apply, ← map_sub, cross_mirrored] at hleft
  exact neg_nonneg.mp hleft

end SimpleLoop

end Plane

end BuildingModel
