import BuildingModel.Proofs.Number.Difference
import BuildingModel.View.Clipping
import Mathlib

/-!
# Section boxes and their sides

A section box keeps the points between its bounds. Its sides are six planes that face inwards. The distance of a
point from a side is computed with rounding, but its sign is exact, so the planes keep the same finite points as
the box if its bounds are numbers (`SectionBox.toPlanes_agree`). They cut a whole box away exactly if it has no
point in common with the section box: boxes along the axes that do not meet lie apart along one of the axes, and
then all corners lie behind one side.
-/

namespace BuildingModel

open Float.Model

/-- An axis of space. -/
inductive Axis
  | x
  | y
  | z

/-- The coordinate along an axis. -/
def Vec3.along {α : Type} (v : Vec3 α) : Axis → α
  | .x => v.x
  | .y => v.y
  | .z => v.z

namespace Axis

/-- The vector of length one along an axis. -/
def unit {α : Type} [Scalar α] : Axis → Vec3 α
  | .x => Vec3.unitX
  | .y => Vec3.unitY
  | .z => Vec3.unitZ

/-- What holds along all axes holds along each of the three. -/
lemma forall_iff {q : Axis → Prop} : (∀ a, q a) ↔ q .x ∧ q .y ∧ q .z := by
  constructor
  · intro h
    exact ⟨h .x, h .y, h .z⟩
  · rintro ⟨hx, hy, hz⟩ a
    cases a <;> assumption

/-- What holds along some axis holds along one of the three. -/
lemma exists_iff {q : Axis → Prop} : (∃ a, q a) ↔ q .x ∨ q .y ∨ q .z := by
  rw [← not_iff_not, not_exists, forall_iff, not_or, not_or]

/-- A point can be chosen axis by axis. -/
lemma exists_point_iff {α : Type} {q : Axis → α → Prop} : (∃ p : Vec3 α, ∀ a, q a (p.along a)) ↔ ∀ a, ∃ x, q a x := by
  constructor
  · rintro ⟨p, hp⟩ a
    exact ⟨_, hp a⟩
  · intro h
    choose f hf using h
    refine ⟨⟨f .x, f .y, f .z⟩, fun a => ?_⟩
    cases a <;> exact hf _

end Axis

/-- Every coordinate is finite. -/
def Vec3.Finite (p : Vec3 Float32) : Prop := ∀ a, (p.along a).isFinite = true

namespace Box

/-- Every bound is finite. -/
def Finite (b : Box Float32) : Prop := b.min.Finite ∧ b.max.Finite

/-- Every bound is a number, perhaps an infinite one. -/
def Numeric (b : Box Float32) : Prop := ∀ a, (b.min.along a).isNaN = false ∧ (b.max.along a).isNaN = false

variable {b c : Box Float32} {p : Vec3 Float32}

/-- Finite bounds are numbers. -/
lemma Finite.numeric (hb : b.Finite) : b.Numeric :=
  fun a => ⟨Single.isNaN_of_isFinite (hb.1 a), Single.isNaN_of_isFinite (hb.2 a)⟩

/-- A box holds a point if it does along each axis. -/
lemma contains_iff_along :
    b.contains p = true ↔ ∀ a, b.min.along a ≤ p.along a ∧ p.along a ≤ b.max.along a := by
  rw [Axis.forall_iff]
  simp only [contains, Vec3.along, Bool.and_eq_true, decide_eq_true_eq, and_assoc]

/-- A box that holds a point has numbers as its bounds. -/
lemma Numeric.of_contains (h : b.contains p = true) : b.Numeric := by
  rw [contains_iff_along] at h
  exact fun a => ⟨(Single.isNaN_of_le (h a).1).1, (Single.isNaN_of_le (h a).2).2⟩

/-- A box is not empty exactly if its bounds are in order along each axis. -/
lemma isEmpty_eq_false_iff (hb : b.Numeric) : b.isEmpty = false ↔ ∀ a, b.min.along a ≤ b.max.along a := by
  have hnot : ∀ a, b.min.along a ≤ b.max.along a ↔ ¬ b.max.along a < b.min.along a :=
    fun a => (Single.not_lt (hb a).2 (hb a).1).symm
  simp only [hnot, Axis.forall_iff]
  simp only [isEmpty, Vec3.along, Bool.or_eq_false_iff, decide_eq_false_iff_not, and_assoc]

/-- The coordinates of a corner are bounds of the box. -/
lemma along_of_mem_corners (hp : p ∈ b.corners) (a : Axis) :
    p.along a = b.min.along a ∨ p.along a = b.max.along a := by
  simp only [corners, List.mem_cons, List.not_mem_nil, or_false] at hp
  rcases hp with rfl | rfl | rfl | rfl | rfl | rfl | rfl | rfl <;> cases a <;>
    first
      | exact .inl rfl
      | exact .inr rfl

lemma min_mem_corners (b : Box Float32) : b.min ∈ b.corners := List.mem_cons_self

lemma max_mem_corners (b : Box Float32) : b.max ∈ b.corners := by
  simp [corners]

/-- The corners of a finite box are finite. -/
lemma Finite.of_mem_corners (hb : b.Finite) (hp : p ∈ b.corners) : p.Finite := by
  intro a
  rcases along_of_mem_corners hp a with h | h
  · exact h ▸ hb.1 a
  · exact h ▸ hb.2 a

/-- Two intervals that do not lie apart have a number in common. -/
lemma exists_common_iff {low high low' high' : Float32} (h : low ≤ high) (h' : low' ≤ high') :
    (∃ x, (low ≤ x ∧ x ≤ high) ∧ low' ≤ x ∧ x ≤ high') ↔ ¬ (high < low' ∨ high' < low) := by
  obtain ⟨hlow, hhigh⟩ := Single.isNaN_of_le h
  obtain ⟨hlow', hhigh'⟩ := Single.isNaN_of_le h'
  rw [not_or, Single.not_lt hhigh hlow', Single.not_lt hhigh' hlow]
  constructor
  · rintro ⟨x, ⟨hx, hx'⟩, hy, hy'⟩
    exact ⟨Single.le_trans hy hx', Single.le_trans hx hy'⟩
  · rintro ⟨hx, hx'⟩
    -- The greater of the two low ends lies in both intervals.
    by_cases hless : low < low'
    · exact ⟨low', ⟨Single.le_of_lt hless, hx⟩, Single.le_refl hlow', h'⟩
    · exact ⟨low, ⟨Single.le_refl hlow, h⟩, (Single.not_lt hlow hlow').mp hless, hx'⟩

/-- Boxes without a common point lie apart along an axis. -/
lemma no_common_point_iff (hb : b.Numeric) (hc : c.Numeric) (hb' : b.isEmpty = false) (hc' : c.isEmpty = false) :
    (¬ ∃ p, b.contains p = true ∧ c.contains p = true) ↔
      ∃ a, b.max.along a < c.min.along a ∨ c.max.along a < b.min.along a := by
  rw [isEmpty_eq_false_iff hb] at hb'
  rw [isEmpty_eq_false_iff hc] at hc'
  simp only [contains_iff_along, ← forall_and]
  rw [Axis.exists_point_iff (q := fun a x =>
    (b.min.along a ≤ x ∧ x ≤ b.max.along a) ∧ c.min.along a ≤ x ∧ x ≤ c.max.along a), not_forall]
  exact exists_congr fun a => by rw [exists_common_iff (hb' a) (hc' a), not_not]

end Box

namespace ClippingPlane

variable {p : Vec3 Float32} {d : Float32}

/-- Along an axis only one coordinate counts. -/
lemma dot_along {n : Vec3 Float32} {a : Axis} (hn : ∀ b, b ≠ a → Single.IsZero (n.along b)) (hp : p.Finite) :
    ZeroAlike (n.dot p).toModel.unpack (n.along a * p.along a).toModel.unpack := by
  have hzero : ∀ b, b ≠ a → Single.IsZero (n.along b * p.along b) := fun b hb => (hn b hb).mul (hp b)
  cases a with
  | x => exact (Single.sum_isZero (hzero .y (by simp)) (hzero .z (by simp)) _).1
  | y => exact (Single.sum_isZero (hzero .x (by simp)) (hzero .z (by simp)) _).2.1
  | z => exact (Single.sum_isZero (hzero .x (by simp)) (hzero .y (by simp)) _).2.2

/-- The product with a unit vector is the coordinate, but for the sign of a zero. -/
lemma dot_unit (hp : p.Finite) (a : Axis) :
    ZeroAlike (a.unit.dot p).toModel.unpack (p.along a).toModel.unpack := by
  have hone : a.unit.along a = (1 : Float32) := by cases a <;> rfl
  have hzero : ∀ b, b ≠ a → Single.IsZero (a.unit.along b) := by
    intro b hb
    cases a <;> cases b <;> first | exact absurd rfl hb | exact Single.isZero_zero
  have hdot := dot_along hzero hp
  rwa [hone, Single.one_mul] at hdot

/-- The product with its negative is the negative coordinate, but for the sign of a zero. -/
lemma dot_neg_unit (hp : p.Finite) (a : Axis) :
    ZeroAlike ((-a.unit).dot p).toModel.unpack (-p.along a).toModel.unpack := by
  have hone : (-a.unit).along a = (-1 : Float32) := by cases a <;> rfl
  have hzero : ∀ b, b ≠ a → Single.IsZero ((-a.unit).along b) := by
    intro b hb
    cases a <;> cases b <;> first | exact absurd rfl hb | exact Single.isZero_neg_zero
  have hdot := dot_along hzero hp
  rwa [hone, Single.neg_one_mul] at hdot

/-- The computed distance is negative exactly where the exact one is. -/
lemma signedDistance_across_lt_zero {n : Vec3 Float32} {x : Float32}
    (h : ZeroAlike (n.dot p).toModel.unpack x.toModel.unpack) (hx : x.isFinite = true) (hd : d.isNaN = false) :
    (across n d).signedDistance p < 0 ↔ x < d := by
  have hfinite : (n.dot p).isFinite = true := by
    change (n.dot p).toModel.unpack.isFinite = true
    rcases h with h | ⟨s, t, hs, -⟩
    · rw [h]
      exact hx
    · rw [hs]
      rfl
  rw [← Single.lt_congr_left h d]
  exact Single.sub_lt_zero_iff hfinite hd

/-- A point lies behind the plane at a lower bound exactly if it lies below the bound. -/
lemma low_side (hp : p.Finite) (hd : d.isNaN = false) (a : Axis) :
    (across a.unit d).signedDistance p < 0 ↔ p.along a < d :=
  signedDistance_across_lt_zero (dot_unit hp a) (hp a) hd

/-- It lies behind the plane at an upper bound exactly if it lies above the bound. -/
lemma high_side (hp : p.Finite) (hd : d.isNaN = false) (a : Axis) :
    (across (-a.unit) (-d)).signedDistance p < 0 ↔ d < p.along a := by
  rw [signedDistance_across_lt_zero (dot_neg_unit hp a) (Single.isFinite_neg (hp a)) (Single.isNaN_neg hd)]
  exact Single.neg_lt_neg

section

variable {b : Box Float32} (hb : b.Finite) (hb' : b.isEmpty = false) (hd : d.isNaN = false)
include hb hb' hd

/-- All corners lie behind a side if the one farthest in front of it does. -/
lemma corners_behind_low (a : Axis) :
    (∀ p ∈ b.corners, (across a.unit d).signedDistance p < 0) ↔ b.max.along a < d := by
  constructor
  · intro h
    exact (low_side hb.2 hd a).mp (h _ b.max_mem_corners)
  · intro h p hp
    rw [low_side (hb.of_mem_corners hp) hd]
    rcases Box.along_of_mem_corners hp a with heq | heq
    · rw [heq]
      exact Single.lt_of_le_of_lt ((Box.isEmpty_eq_false_iff hb.numeric).mp hb' a) h
    · rw [heq]
      exact h

/-- All corners lie behind the plane at an upper bound exactly if the box lies above the bound. -/
lemma corners_behind_high (a : Axis) :
    (∀ p ∈ b.corners, (across (-a.unit) (-d)).signedDistance p < 0) ↔ d < b.min.along a := by
  constructor
  · intro h
    exact (high_side hb.1 hd a).mp (h _ b.min_mem_corners)
  · intro h p hp
    rw [high_side (hb.of_mem_corners hp) hd]
    rcases Box.along_of_mem_corners hp a with heq | heq
    · rw [heq]
      exact h
    · rw [heq]
      exact Single.lt_of_lt_of_le h ((Box.isEmpty_eq_false_iff hb.numeric).mp hb' a)

end

end ClippingPlane

namespace SectionBox

open ClippingPlane

variable {s : SectionBox Float32} {p : Vec3 Float32} {b : Box Float32}

/-- The planes of an enabled box are its sides. -/
lemma mem_toPlanes_iff {c : ClippingPlane Float32} : c ∈ s.toPlanes.planes ↔ s.enabled = true ∧
    ∃ a, c = across a.unit (s.bounds.min.along a) ∨ c = across (-a.unit) (-s.bounds.max.along a) := by
  obtain ⟨⟨low, high⟩, enabled⟩ := s
  cases enabled
  · simp [toPlanes, ClippingPlanes.empty]
  · rw [Axis.exists_iff]
    simp only [toPlanes, Vec3.along, Axis.unit, if_true, List.mem_append, List.mem_cons, List.not_mem_nil, or_false,
      true_and, or_assoc]

/-- The planes of a section box are two for each axis, if it is enabled. -/
lemma exists_toPlanes_iff {q : ClippingPlane Float32 → Prop} : (∃ c ∈ s.toPlanes.planes, q c) ↔ s.enabled = true ∧
    ∃ a, q (across a.unit (s.bounds.min.along a)) ∨ q (across (-a.unit) (-s.bounds.max.along a)) := by
  simp only [mem_toPlanes_iff]
  constructor
  · rintro ⟨c, ⟨henabled, a, rfl | rfl⟩, hq⟩
    · exact ⟨henabled, a, .inl hq⟩
    · exact ⟨henabled, a, .inr hq⟩
  · rintro ⟨henabled, a, hq | hq⟩
    · exact ⟨_, ⟨henabled, a, .inl rfl⟩, hq⟩
    · exact ⟨_, ⟨henabled, a, .inr rfl⟩, hq⟩

/-- A point is clipped exactly if it lies beyond some bound. -/
lemma clipsPoint_iff (hp : p.Finite) (hs : s.bounds.Numeric) : s.toPlanes.clipsPoint p = true ↔ s.enabled = true ∧
    ∃ a, p.along a < s.bounds.min.along a ∨ s.bounds.max.along a < p.along a := by
  have hacross : ∀ (n : Vec3 Float32) (d : Float32),
      (across n d).clipsPoint p = true ↔ (across n d).signedDistance p < 0 := by
    intro n d
    rw [ClippingPlane.clipsPoint, across, Bool.true_and, decide_eq_true_eq]
  rw [ClippingPlanes.clipsPoint, List.any_eq_true, exists_toPlanes_iff]
  simp only [hacross, low_side hp (hs _).1, high_side hp (hs _).2]

/-- A box is clipped exactly if it lies beyond some bound as a whole. -/
lemma clipsBox_iff (hb : b.Finite) (hb' : b.isEmpty = false) (hs : s.bounds.Numeric) :
    s.toPlanes.clipsBox b = true ↔ s.enabled = true ∧
      ∃ a, b.max.along a < s.bounds.min.along a ∨ s.bounds.max.along a < b.min.along a := by
  have hacross : ∀ (n : Vec3 Float32) (d : Float32),
      (across n d).clipsBox b = true ↔ ∀ p ∈ b.corners, (across n d).signedDistance p < 0 := by
    intro n d
    rw [ClippingPlane.clipsBox, hb', across, Bool.not_false, Bool.and_true, Bool.true_and, List.all_eq_true]
    exact forall₂_congr fun p _ => decide_eq_true_iff
  rw [ClippingPlanes.clipsBox, List.any_eq_true, exists_toPlanes_iff]
  simp only [hacross, corners_behind_low hb hb' (hs _).1, corners_behind_high hb hb' (hs _).2]

/-- A section box holds what its planes do not clip. -/
lemma contains_iff_not_clipsPoint (hp : p.Finite) (hs : s.bounds.Numeric) :
    s.contains p = true ↔ s.toPlanes.clipsPoint p = false := by
  rw [← Bool.not_eq_true, clipsPoint_iff hp hs, contains, Bool.or_eq_true, Bool.not_eq_true',
    Box.contains_iff_along, not_and_or, Bool.not_eq_true, not_exists]
  refine or_congr_right (forall_congr' fun a => ?_)
  have hnumber := Single.isNaN_of_isFinite (hp a)
  rw [not_or, Single.not_lt hnumber (hs a).1, Single.not_lt (hs a).2 hnumber]

/-- A section box and its sides agree. A finite point is kept if no side cuts it away and the bounds of the box, if
it is enabled, are numbers. A finite box is cut away by one side if it has no point in common with the bounds, that
is, if none of its points is kept. -/
theorem toPlanes_agree (s : SectionBox Float32) :
    (∀ p : Vec3 Float32, p.Finite →
      (s.contains p = true ↔ s.toPlanes.clipsPoint p = false ∧ (s.enabled = true → s.bounds.Numeric))) ∧
    (s.enabled = true → s.bounds.Numeric → s.bounds.isEmpty = false →
      ∀ b : Box Float32, b.Finite → b.isEmpty = false →
        (s.toPlanes.clipsBox b = true ↔ ¬ ∃ p, b.contains p = true ∧ s.bounds.contains p = true) ∧
        (s.toPlanes.clipsBox b = true ↔ ∀ p, b.contains p = true → s.contains p = false)) := by
  refine ⟨fun p hp => ?_, fun henabled hs hs' b hb hb' => ?_⟩
  · cases h : s.enabled with
    | false => simp [contains, toPlanes, ClippingPlanes.clipsPoint, ClippingPlanes.empty, h]
    | true =>
      constructor
      · intro hcontains
        have hs : s.bounds.Numeric := by
          rw [contains, h] at hcontains
          exact .of_contains hcontains
        exact ⟨(contains_iff_not_clipsPoint hp hs).mp hcontains, fun _ => hs⟩
      · rintro ⟨hclips, hs⟩
        exact (contains_iff_not_clipsPoint hp (hs rfl)).mpr hclips
  · have hapart : s.toPlanes.clipsBox b = true ↔ ¬ ∃ p, b.contains p = true ∧ s.bounds.contains p = true := by
      rw [clipsBox_iff hb hb' hs, Box.no_common_point_iff hb.numeric hs hb' hs', and_iff_right henabled]
    refine ⟨hapart, hapart.trans ?_⟩
    simp only [contains, henabled, Bool.not_true, Bool.false_or, not_exists, not_and, Bool.not_eq_true]

/-- A shaft that is open at the top. -/
def shaft : SectionBox Float32 := ⟨⟨⟨0, 0, 0⟩, ⟨1, 1, Scalar.infinity⟩⟩, true⟩

/-- A box that meets the shaft in an edge only, and one beside it. -/
theorem toPlanes_agree_shaft :
    shaft.bounds.Numeric ∧ (∃ p, (⟨⟨1, 1, 5⟩, ⟨2, 2, 6⟩⟩ : Box Float32).contains p = true ∧
      shaft.bounds.contains p = true) ∧
    (∀ p, (⟨⟨0, 2, 5⟩, ⟨1, 3, 6⟩⟩ : Box Float32).contains p = true → shaft.contains p = false) ∧
    shaft.contains ⟨1, 0, 7⟩ = true := by
  have hs : shaft.bounds.Numeric := Axis.forall_iff.mpr (by decide +kernel)
  have hedge : (⟨⟨1, 1, 5⟩, ⟨2, 2, 6⟩⟩ : Box Float32).Finite :=
    ⟨Axis.forall_iff.mpr (by decide +kernel), Axis.forall_iff.mpr (by decide +kernel)⟩
  have hbeside : (⟨⟨0, 2, 5⟩, ⟨1, 3, 6⟩⟩ : Box Float32).Finite :=
    ⟨Axis.forall_iff.mpr (by decide +kernel), Axis.forall_iff.mpr (by decide +kernel)⟩
  have hp : (⟨1, 0, 7⟩ : Vec3 Float32).Finite := Axis.forall_iff.mpr (by decide +kernel)
  obtain ⟨hpoints, hboxes⟩ := toPlanes_agree shaft
  have hboxes := hboxes rfl hs (by decide +kernel)
  refine ⟨hs, ?_, ?_, ?_⟩
  · by_contra hnone
    have hclips := (hboxes _ hedge (by decide +kernel)).1.mpr hnone
    exact absurd hclips (by decide +kernel)
  · exact (hboxes _ hbeside (by decide +kernel)).2.mp (by decide +kernel)
  · exact (hpoints _ hp).mpr ⟨by decide +kernel, fun _ => hs⟩

/-- A box with a bound that is no number keeps no point, but its sides do. -/
theorem not_contains_of_nan :
    (⟨0.5, 0.5, 0.5⟩ : Vec3 Float32).Finite ∧
      contains (⟨⟨⟨0 / 0, 0, 0⟩, ⟨1, 1, 1⟩⟩, true⟩ : SectionBox Float32) ⟨0.5, 0.5, 0.5⟩ = false ∧
        (toPlanes (⟨⟨⟨0 / 0, 0, 0⟩, ⟨1, 1, 1⟩⟩, true⟩ : SectionBox Float32)).clipsPoint ⟨0.5, 0.5, 0.5⟩ = false :=
  ⟨Axis.forall_iff.mpr (by decide +kernel), by decide +kernel, by decide +kernel⟩

end SectionBox

end BuildingModel
