import Mathlib
import BuildingModel.Proofs.Exchange.Grammar
import BuildingModel.Proofs.Shape.Fan
import BuildingModel.Proofs.Shape.Triangulation

/-!
# Profiles stay oriented

A profile is made from a loop, and then holes are cut and the whole is turned and moved, in any order. Its outer loop
never runs clockwise and its holes never run counter-clockwise: a loop that is run backwards has the opposite area
(`Polygon.signedArea_reverse`), and to turn a loop along any axis multiplies its area by the square of the length of
the axis (`Polygon.signedArea_map_turned`). Since no hole is too small to be cut, the list of points of a profile is
the list that the places in its triangles count (`Profile.Wound.lists`).
-/

namespace BuildingModel

/-! ## Areas of loops -/

section Loops

variable {β : Type}

/-- The edges of a loop are its points with the points after them. -/
lemma closedPairs_eq_zip_rotate (ps : List β) : closedPairs ps = ps.zip (ps.rotate 1) := by
  cases ps with
  | nil => rfl
  | cons p rest => rw [closedPairs, List.rotate_cons_succ, List.rotate_zero]

/-- A loop that is run backwards has the same edges, each turned round. -/
lemma closedPairs_reverse_perm (ps : List β) : (closedPairs ps.reverse).Perm ((closedPairs ps).map Prod.swap) := by
  have hround : ps.rotate (ps.length - 1 % ps.length + 1) = ps := by
    rcases ps with _ | ⟨p, _ | ⟨q, rest⟩⟩
    · rfl
    · exact List.rotate_singleton p _
    · rw [Nat.mod_eq_of_lt (by simp), Nat.sub_add_cancel (by simp), List.rotate_length]
  have hback : (closedPairs ps.reverse).reverse.rotate 1 = (closedPairs ps).map Prod.swap := by
    rw [closedPairs_eq_zip_rotate, closedPairs_eq_zip_rotate, List.zip_swap, List.zip,
      List.reverse_zipWith (by simp), List.zipWith_rotate_distrib _ _ _ _ (by simp), List.reverse_rotate,
      List.reverse_reverse, List.length_reverse, List.rotate_rotate, hround]
  rw [← hback]
  exact (List.reverse_perm _).symm.trans (List.rotate_perm _ 1).symm

end Loops

/-- Turned along an axis, stretched by its length, and moved. -/
def Vec2.turned (origin axis q : Vec2 ℚ) : Vec2 ℚ :=
  ⟨q.x * axis.x - q.y * axis.y + origin.x, q.x * axis.y + q.y * axis.x + origin.y⟩

namespace Polygon

/-- Twice the area between an edge and the origin. -/
def edgeArea (e : Vec2 ℚ × Vec2 ℚ) : ℚ := e.1.x * e.2.y - e.1.y * e.2.x

/-- The area of a loop is half the sum over its edges. -/
lemma signedArea_eq_sum (ps : List (Vec2 ℚ)) : signedArea ps = ((closedPairs ps).map edgeArea).sum / 2 := by
  rw [signedArea_eq, closedPairs_eq, List.map_map]
  rfl

/-- A loop that is run backwards has the opposite area. -/
lemma signedArea_reverse (ps : List (Vec2 ℚ)) : signedArea ps.reverse = -signedArea ps := by
  have hswap : ∀ e : Vec2 ℚ × Vec2 ℚ, edgeArea e.swap = -edgeArea e := by
    intro e
    simp only [edgeArea, Prod.fst_swap, Prod.snd_swap]
    ring
  have hsum : ((closedPairs ps.reverse).map edgeArea).sum = -((closedPairs ps).map edgeArea).sum := by
    rw [((closedPairs_reverse_perm ps).map edgeArea).sum_eq, List.map_map, List.sum_neg, List.map_map]
    exact congrArg List.sum (List.map_congr_left fun e _ => hswap e)
  rw [signedArea_eq_sum, signedArea_eq_sum, hsum, neg_div]

/-- A loop that is turned along an axis has its area times the square of the length of the axis. -/
lemma signedArea_map_turned (origin axis : Vec2 ℚ) (ps : List (Vec2 ℚ)) :
    signedArea (ps.map (Vec2.turned origin axis)) = (axis.x * axis.x + axis.y * axis.y) * signedArea ps := by
  -- What the move adds to the area of an edge is a difference between its ends, and vanishes around the loop.
  let gain (q : Vec2 ℚ) : ℚ :=
    origin.x * (q.x * axis.y + q.y * axis.x) - origin.y * (q.x * axis.x - q.y * axis.y)
  have hedge : edgeArea ∘ Prod.map (Vec2.turned origin axis) (Vec2.turned origin axis) =
      fun e => (axis.x * axis.x + axis.y * axis.y) * edgeArea e + (gain e.2 - gain e.1) := by
    funext e
    simp only [Function.comp_apply, edgeArea, Vec2.turned, Prod.map_fst, Prod.map_snd, gain]
    ring
  have hsum : ((closedPairs (ps.map (Vec2.turned origin axis))).map edgeArea).sum =
      (axis.x * axis.x + axis.y * axis.y) * ((closedPairs ps).map edgeArea).sum := by
    rw [closedPairs_map, List.map_map, hedge, List.sum_map_add, sum_closedPairs_sub gain, List.sum_map_mul_left,
      add_zero]
  rw [signedArea_eq_sum, signedArea_eq_sum, hsum, mul_div_assoc]

end Polygon

namespace Profile

/-! ## Loops of a profile -/

/-- A loop without its last point, if that repeats the first one. -/
structure Unclosed (ring kept : List (Vec2 ℚ)) : Prop where
  atMostLast : kept = ring ∨ kept = ring.dropLast
  repeated : 2 ≤ ring.length → ring.head? = ring.getLast? → kept = ring.dropLast
  apart : ∀ first last, ring.head? = some first → ring.getLast? = some last → 1e-9 ≤ (first - last).norm →
    kept = ring

/-- Once along a loop, in one of the two senses. -/
def Follows (ring loop : List (Vec2 ℚ)) : Prop :=
  ∃ kept, Unclosed ring kept ∧ (loop = kept ∨ loop = kept.reverse)

lemma norm_sub_self (p : Vec2 ℚ) : (p - p).norm = 0 := by
  have hnorm : (p - p).norm = Rat.sqrt ((p.x - p.x) * (p.x - p.x) + (p.y - p.y) * (p.y - p.y)) := rfl
  rw [hnorm, sub_self, sub_self, mul_zero, add_zero]
  decide

/-- Dropping a repeated point leaves the loop unclosed. -/
lemma unclosed_dropClosing (ring : List (Vec2 ℚ)) : Unclosed ring (dropClosing ring) := by
  rcases ring with _ | ⟨first, _ | ⟨second, rest⟩⟩
  · exact ⟨.inl rfl, fun _ _ => rfl, fun _ _ _ _ _ => rfl⟩
  · exact ⟨.inl rfl, fun h _ => absurd h (by simp), fun _ _ _ _ _ => rfl⟩
  · obtain ⟨last, hlast⟩ : ∃ last, (first :: second :: rest).getLast? = some last :=
      ⟨_, List.getLast?_eq_some_getLast (List.cons_ne_nil _ _)⟩
    have hdrop : dropClosing (first :: second :: rest) =
        if (first - last).norm < 1e-9 then (first :: second :: rest).dropLast else first :: second :: rest := by
      simp only [dropClosing, hlast]
    rw [hdrop]
    refine ⟨?_, ?_, ?_⟩
    · split
      · exact .inr rfl
      · exact .inl rfl
    · intro _ hsame
      rw [hlast, List.head?_cons, Option.some.injEq] at hsame
      rw [hsame, norm_sub_self, if_pos (by decide +kernel)]
    · intro first' last' hfirst' hlast' hapart
      rw [List.head?_cons, Option.some.injEq] at hfirst'
      rw [hlast, Option.some.injEq] at hlast'
      subst hfirst' hlast'
      exact if_neg (not_lt.mpr hapart)

/-- Orienting a loop keeps it, in one of the two senses. -/
lemma follows_orient (sense : Bool) (ring : List (Vec2 ℚ)) : Follows ring (orient sense ring) := by
  refine ⟨dropClosing ring, unclosed_dropClosing ring, ?_⟩
  rw [orient]
  split
  · exact .inr rfl
  · exact .inl rfl

/-- A loop that is made to run in a sense has the area of the loop that was given, with the sign of the sense. -/
lemma signedArea_orient (sense : Bool) (ring : List (Vec2 ℚ)) : Polygon.signedArea (orient sense ring) =
    if sense then |Polygon.signedArea (dropClosing ring)| else -|Polygon.signedArea (dropClosing ring)| := by
  rcases lt_or_ge 0 (Polygon.signedArea (dropClosing ring)) with hpos | hneg
  · rw [abs_of_pos hpos]
    cases sense with
    | true => simp [orient, hpos]
    | false => simp [orient, hpos, Polygon.signedArea_reverse]
  · rw [abs_of_nonpos hneg]
    cases sense with
    | true => simp [orient, hneg.not_gt, Polygon.signedArea_reverse]
    | false => simp [orient, hneg.not_gt]

/-- A loop that is oriented counter-clockwise has no negative area. -/
lemma signedArea_orient_true (ring : List (Vec2 ℚ)) : 0 ≤ Polygon.signedArea (orient true ring) :=
  (abs_nonneg _).trans_eq (signedArea_orient true ring).symm

/-- One that is oriented clockwise has no positive area. -/
lemma signedArea_orient_false (ring : List (Vec2 ℚ)) : Polygon.signedArea (orient false ring) ≤ 0 :=
  (signedArea_orient false ring).trans_le (neg_nonpos.mpr (abs_nonneg _))

/-! ## Changes of a profile -/

/-- A change of a profile: a hole is cut, or the profile is turned and moved. -/
inductive Edit where
  | cut (hole : List (Vec2 ℚ))
  | turn (origin axis : Vec2 ℚ)

def edit (p : Profile ℚ) : Edit → Profile ℚ
  | .cut hole => p.addHole hole
  | .turn origin axis => p.transform origin axis

def edited (p : Profile ℚ) (edits : List Edit) : Profile ℚ := edits.foldl edit p

/-- Where a change takes a point that is already there. -/
def Edit.move : Edit → Vec2 ℚ → Vec2 ℚ
  | .cut _, q => q
  | .turn origin axis, q => Vec2.turned origin axis q

/-- Where a number of changes take a point that is already there. -/
def motion (edits : List Edit) (q : Vec2 ℚ) : Vec2 ℚ := edits.foldl (fun q e => e.move q) q

/-- The holes that a number of changes cut: each is a loop that was given, if it has three points at least, where the
later changes take it. -/
inductive Cuts : List Edit → List (List (Vec2 ℚ)) → Prop where
  | nil : Cuts [] []
  | cut {hole loop : List (Vec2 ℚ)} {edits : List Edit} {holes : List (List (Vec2 ℚ))} :
    Follows hole loop → 3 ≤ loop.length → Cuts edits holes →
      Cuts (.cut hole :: edits) (loop.map (motion edits) :: holes)
  | small {hole loop : List (Vec2 ℚ)} {edits : List Edit} {holes : List (List (Vec2 ℚ))} :
    Follows hole loop → loop.length < 3 → Cuts edits holes → Cuts (.cut hole :: edits) holes
  | turn {origin axis : Vec2 ℚ} {edits : List Edit} {holes : List (List (Vec2 ℚ))} :
    Cuts edits holes → Cuts (.turn origin axis :: edits) holes

/-- The outer loop does not run clockwise, no hole runs counter-clockwise, and none of them is too short. -/
structure Wound (p : Profile ℚ) : Prop where
  outer : 3 ≤ p.outer.length ∧ 0 ≤ Polygon.signedArea p.outer
  holes : ∀ hole ∈ p.holes, 3 ≤ hole.length ∧ Polygon.signedArea hole ≤ 0

variable {p : Profile ℚ}

/-- A profile is made of a loop that has three points at least. -/
lemma ofLoop_eq_ok_iff {ring : List (Vec2 ℚ)} :
    ofLoop ring = .ok p ↔ 3 ≤ (orient true ring).length ∧ p = ⟨orient true ring, []⟩ := by
  rw [ofLoop]
  split
  case isTrue h =>
    constructor
    · intro heq
      cases heq
    · rintro ⟨hlength, -⟩
      exact absurd h (not_lt.mpr hlength)
  case isFalse h =>
    constructor
    · intro heq
      exact ⟨not_lt.mp h, (Except.ok.inj heq).symm⟩
    · rintro ⟨-, rfl⟩
      rfl

/-- A hole with three points at least is cut clockwise. -/
lemma addHole_of_le {hole : List (Vec2 ℚ)} (h : 3 ≤ (orient false hole).length) :
    p.addHole hole = ⟨p.outer, p.holes ++ [orient false hole]⟩ := if_pos h

/-- A smaller one is not cut. -/
lemma addHole_of_lt {hole : List (Vec2 ℚ)} (h : (orient false hole).length < 3) : p.addHole hole = p :=
  if_neg (not_le.mpr h)

/-- A change moves the outer loop. -/
lemma outer_edit (p : Profile ℚ) (e : Edit) : (p.edit e).outer = p.outer.map e.move := by
  cases e with
  | turn origin axis => rfl
  | cut hole =>
    have hmove : p.outer.map (Edit.cut hole).move = p.outer := List.map_id p.outer
    rw [hmove, edit]
    rcases Nat.lt_or_ge (orient false hole).length 3 with hlt | hge
    · rw [addHole_of_lt hlt]
    · rw [addHole_of_le hge]

/-- Changes take the outer loop along. -/
lemma outer_edited (p : Profile ℚ) (edits : List Edit) : (p.edited edits).outer = p.outer.map (motion edits) := by
  induction edits generalizing p with
  | nil => exact (List.map_id p.outer).symm
  | cons e edits ih =>
    rw [edited, List.foldl_cons, ← edited, ih, outer_edit, List.map_map]
    rfl

/-- Changes take the holes along that are already there, and add those that they cut. -/
lemma exists_cuts (p : Profile ℚ) (edits : List Edit) :
    ∃ cuts, Cuts edits cuts ∧ (p.edited edits).holes = p.holes.map (·.map (motion edits)) ++ cuts := by
  induction edits generalizing p with
  | nil =>
    refine ⟨[], .nil, ?_⟩
    have hmotion : (fun hole : List (Vec2 ℚ) => hole.map (motion [])) = id := funext List.map_id
    rw [hmotion, List.map_id, List.append_nil]
    rfl
  | cons e edits ih =>
    obtain ⟨cuts, hcuts, hholes⟩ := ih (p.edit e)
    rw [edited, List.foldl_cons, ← edited, hholes]
    cases e with
    | turn origin axis =>
      refine ⟨cuts, .turn hcuts, ?_⟩
      rw [edit, transform, List.map_map]
      congr 2
      exact funext fun hole => List.map_map
    | cut hole =>
      rw [edit]
      rcases Nat.lt_or_ge (orient false hole).length 3 with hlt | hge
      · rw [addHole_of_lt hlt]
        exact ⟨cuts, .small (follows_orient false hole) hlt hcuts, rfl⟩
      · rw [addHole_of_le hge, List.map_append, List.append_assoc]
        exact ⟨_, .cut (follows_orient false hole) hge hcuts, rfl⟩

/-! ## Orientation -/

/-- A new profile is wound as it should be. -/
lemma wound_ofLoop {ring : List (Vec2 ℚ)} (h : ofLoop ring = .ok p) : p.Wound := by
  obtain ⟨hlength, rfl⟩ := ofLoop_eq_ok_iff.mp h
  exact ⟨⟨hlength, signedArea_orient_true ring⟩, fun hole hmem => absurd hmem List.not_mem_nil⟩

/-- It stays so when a hole is cut. -/
lemma Wound.addHole (h : p.Wound) (hole : List (Vec2 ℚ)) : (p.addHole hole).Wound := by
  rcases Nat.lt_or_ge (orient false hole).length 3 with hlt | hge
  · rw [addHole_of_lt hlt]
    exact h
  · rw [addHole_of_le hge]
    refine ⟨h.outer, ?_⟩
    intro hole' hmem
    rcases List.mem_append.mp hmem with hmem | hmem
    · exact h.holes hole' hmem
    · rw [List.mem_singleton.mp hmem]
      exact ⟨hge, signedArea_orient_false hole⟩

/-- It stays so when it is turned and moved, since turning keeps the sign of an area. -/
lemma Wound.transform (h : p.Wound) (origin axis : Vec2 ℚ) : (p.transform origin axis).Wound := by
  have hscale : 0 ≤ axis.x * axis.x + axis.y * axis.y := add_nonneg (mul_self_nonneg _) (mul_self_nonneg _)
  refine ⟨⟨?_, ?_⟩, ?_⟩
  · exact (List.length_map (Vec2.turned origin axis)).ge.trans' h.outer.1
  · exact (mul_nonneg hscale h.outer.2).trans_eq (Polygon.signedArea_map_turned origin axis p.outer).symm
  · intro hole hmem
    obtain ⟨hole₀, hmem₀, rfl⟩ := List.mem_map.mp hmem
    refine ⟨(List.length_map (Vec2.turned origin axis)).ge.trans' (h.holes hole₀ hmem₀).1, ?_⟩
    have harea := Polygon.signedArea_map_turned origin axis hole₀
    exact harea.trans_le (mul_nonpos_of_nonneg_of_nonpos hscale (h.holes hole₀ hmem₀).2)

/-- It stays so at each change. -/
lemma Wound.edit (h : p.Wound) (e : Edit) : (p.edit e).Wound := by
  cases e with
  | cut hole => exact h.addHole hole
  | turn origin axis => exact h.transform origin axis

/-- It stays so at all changes. -/
lemma Wound.edited (h : p.Wound) (edits : List Edit) : (p.edited edits).Wound := by
  induction edits generalizing p with
  | nil => exact h
  | cons e edits ih => exact ih (h.edit e)

/-- A triangulation lists the points of the outer loop of a profile and then those of its holes, and this is the list
that its triangles count. -/
structure Lists (t : Triangulation ℚ) (p : Profile ℚ) : Prop where
  points : t.points = p.outer ++ p.holes.flatten
  indices : Polygon.triangulateWithHoles earClip p.outer p.holes = .ok t.indices
  counted : Polygon.CountedIn p.outer p.holes t.points t.indices
  triples : 3 ∣ t.indices.length
  within : ∀ i ∈ t.indices, i < t.points.length

/-- No hole of a profile is too small to be cut. -/
lemma Wound.realHoles (h : p.Wound) : Polygon.realHoles p.holes = p.holes :=
  List.filter_eq_self.mpr fun hole hmem => decide_eq_true (h.holes hole hmem).1

/-- A triangulation of an oriented profile lists its points as its triangles count them. -/
lemma Wound.lists (h : p.Wound) {t : Triangulation ℚ} (ht : p.triangulate earClip = .ok t) : Lists t p := by
  obtain ⟨indices, hindices, heq⟩ := Exchange.bind_eq_ok_iff.mp ht
  cases heq
  obtain ⟨htriples, hwithin⟩ := Polygon.triangulateWithHoles_within earClip_inRange hindices
  have hcounted := Polygon.triangulateWithHoles_countedIn hindices
  rw [h.realHoles] at hwithin hcounted
  exact ⟨rfl, hindices, hcounted, htriples, hwithin⟩

/-- A profile made from a loop stays oriented, however holes are cut and the profile is turned and moved: its outer
loop is the given loop, without a closing point, in one of the two senses and taken along, and its area is not
negative. The holes are those that have been cut, in their order, each with at least three points and an area that is
not positive. A triangulation lists the points of the outer loop and then of the holes, as its triangles count them. -/
theorem edited_oriented {ring : List (Vec2 ℚ)} (h : ofLoop ring = .ok p) (edits : List Edit) :
    (∃ loop, Follows ring loop ∧ (p.edited edits).outer = loop.map (motion edits)) ∧
    Cuts edits (p.edited edits).holes ∧
    (p.edited edits).Wound ∧
    ∀ t, (p.edited edits).triangulate earClip = .ok t → Lists t (p.edited edits) := by
  have hwound := (wound_ofLoop h).edited edits
  obtain ⟨-, rfl⟩ := ofLoop_eq_ok_iff.mp h
  obtain ⟨cuts, hcuts, hholes⟩ := exists_cuts ⟨orient true ring, []⟩ edits
  refine ⟨⟨orient true ring, follows_orient true ring, outer_edited _ edits⟩, ?_, hwound, fun t ht => hwound.lists ht⟩
  rw [hholes]
  exact hcuts

/-- A square, clockwise and closed. -/
def square : List (Vec2 ℚ) := [⟨0, 0⟩, ⟨0, 2⟩, ⟨2, 2⟩, ⟨2, 0⟩, ⟨0, 0⟩]

/-- A triangle is cut from the square, a hole that is too small is not, and what is left is turned, stretched and
moved. -/
def squareEdits : List Edit :=
  [.cut [⟨1 / 2, 1 / 2⟩, ⟨3 / 2, 1 / 2⟩, ⟨1, 1⟩], .cut [⟨0, 0⟩, ⟨1, 0⟩, ⟨0, 0⟩], .turn ⟨1, 0⟩ ⟨0, -2⟩]

def squareProfile : Profile ℚ := ⟨[⟨2, 0⟩, ⟨2, 2⟩, ⟨0, 2⟩, ⟨0, 0⟩], []⟩

/-- The square is wound, cut, moved and triangulated. -/
theorem edited_oriented_square : ofLoop square = .ok squareProfile ∧
    (squareProfile.edited squareEdits).outer = [⟨1, -4⟩, ⟨5, -4⟩, ⟨5, 0⟩, ⟨1, 0⟩] ∧
    (squareProfile.edited squareEdits).holes = [[⟨3, -2⟩, ⟨2, -3⟩, ⟨2, -1⟩]] ∧
    Cuts squareEdits (squareProfile.edited squareEdits).holes ∧
    (squareProfile.edited squareEdits).Wound ∧
    ∃ t, (squareProfile.edited squareEdits).triangulate earClip = .ok t ∧
      t.indices = [3, 0, 5, 4, 0, 1, 3, 5, 6, 4, 1, 2, 2, 3, 6, 6, 4, 2] ∧
      Lists t (squareProfile.edited squareEdits) := by
  have horient : orient true square = squareProfile.outer := by decide +kernel
  have hloop : ofLoop square = .ok squareProfile := ofLoop_eq_ok_iff.mpr ⟨by decide +kernel, by rw [horient]; rfl⟩
  have hindices : Polygon.triangulateWithHoles earClip (squareProfile.edited squareEdits).outer
      (squareProfile.edited squareEdits).holes = .ok [3, 0, 5, 4, 0, 1, 3, 5, 6, 4, 1, 2, 2, 3, 6, 6, 4, 2] := by
    decide +kernel
  have ht : (squareProfile.edited squareEdits).triangulate earClip =
      .ok ⟨(squareProfile.edited squareEdits).points, _⟩ :=
    Exchange.bind_eq_ok_iff.mpr ⟨_, hindices, rfl⟩
  obtain ⟨-, hcuts, hwound, hlists⟩ := edited_oriented hloop squareEdits
  exact ⟨hloop, by decide +kernel, by decide +kernel, hcuts, hwound, _, ht, rfl, hlists _ ht⟩

end Profile

end BuildingModel
