import Mathlib
import BuildingModel.Proofs.Shape.Closed
import BuildingModel.Proofs.Shape.OneSided
import BuildingModel.Proofs.Space.Rational

/-!
# Fans over polygons

A polygon whose turns all count as turns to one side is cut into the triangles between its first corner and its
edges. Their areas always amount to the area of the polygon (`Polygon.sum_triangleAreas_fan`), so that they cover it
without overlap if they all face the same way. In a simple polygon they do if it turns to one side only
(`Polygon.triangleAreas_oneSided`). But a turn counts as none up to a fixed size, however large or small the polygon
is: a notch may be hidden by a very short edge, and then the triangles overlap.
-/

namespace BuildingModel

open Plane

/-- Each member of a loop stands before the next one. -/
lemma getElem?_closedPairs {β : Type} (ps : List β) (d : β) {i : ℕ} (hi : i < ps.length) :
    (closedPairs ps)[i]? = some (ps.getD i d, ps.getD ((i + 1) % ps.length) d) := by
  cases ps with
  | nil => cases hi
  | cons p rest =>
    rw [closedPairs, List.getElem?_zip_eq_some]
    rw [List.length_cons] at hi
    constructor
    · rw [List.getD_eq_getElem _ _ (by simpa using hi), List.getElem?_eq_getElem]
    · rcases Nat.lt_or_ge i rest.length with hlt | hge
      · rw [List.length_cons, Nat.mod_eq_of_lt (by omega), List.getD_cons_succ, List.getElem?_append_left hlt,
          List.getD_eq_getElem _ _ hlt, List.getElem?_eq_getElem]
      · obtain rfl : i = rest.length := by omega
        simp

namespace Polygon

variable {ps : List (Vec2 ℚ)}

/-- The corners of a polygon, round and round. -/
def corner (ps : List (Vec2 ℚ)) (i : ℕ) : Vec2 ℚ := ps.getD (i % ps.length) ⟨0, 0⟩

/-- Corners are counted round and round. -/
lemma corner_mod (ps : List (Vec2 ℚ)) (i j : ℕ) : corner ps (i % ps.length + j) = corner ps (i + j) := by
  rw [corner, corner, Nat.mod_add_mod]

/-- The edges of a polygon lead from each corner to the next. -/
lemma getElem?_edges (hps : 0 < ps.length) (i : ℕ) :
    (closedPairs ps)[i % ps.length]? = some (corner ps i, corner ps (i + 1)) := by
  rw [getElem?_closedPairs ps ⟨0, 0⟩ (Nat.mod_lt i hps), ← corner_mod ps i 1]
  rfl

/-- Two edges that follow each other are among the pairs of edges. -/
lemma mem_edgePairs (hps : 0 < ps.length) (i : ℕ) :
    ((corner ps i, corner ps (i + 1)), (corner ps (i + 1), corner ps (i + 2))) ∈ closedPairs (closedPairs ps) := by
  have hlength := length_closedPairs ps
  have hpair := getElem?_closedPairs (closedPairs ps) (⟨0, 0⟩, ⟨0, 0⟩) (i := i % ps.length)
    (by rw [hlength]; exact Nat.mod_lt i hps)
  rw [hlength, Nat.mod_add_mod] at hpair
  apply List.mem_of_getElem? (i := i % ps.length)
  rw [hpair, List.getD_eq_getElem?_getD, List.getD_eq_getElem?_getD, getElem?_edges hps, getElem?_edges hps]
  rfl

/-- How far the edges of a polygon turn at its corners. -/
def turns (ps : List (Vec2 ℚ)) : List ℚ := (closedPairs (closedPairs ps)).map fun e => edgeTurn e.1 e.2

/-- The point lies on an edge. -/
def OnEdge (e : Vec2 ℚ × Vec2 ℚ) (q : Vec2 ℚ) : Prop :=
  ∃ t, 0 ≤ t ∧ t ≤ 1 ∧ q = ⟨e.1.x + t * (e.2.x - e.1.x), e.1.y + t * (e.2.y - e.1.y)⟩

/-- Edges that are not next to each other have no common point, and those that are have their corner in common
only. -/
structure Simple (ps : List (Vec2 ℚ)) : Prop where
  apart : ∀ i j e f, (closedPairs ps)[i]? = some e → (closedPairs ps)[j]? = some f →
    i + 1 < j → j + 1 < i + ps.length → ∀ q, OnEdge e q → ¬ OnEdge f q
  joined : ∀ e ∈ closedPairs (closedPairs ps), ∀ q, OnEdge e.1 q → OnEdge e.2 q → q = e.1.2

/-- The corners as pairs of coordinates. -/
def place (ps : List (Vec2 ℚ)) (i : ℕ) : ℚ × ℚ := ((corner ps i).x, (corner ps i).y)

/-- Places are counted round and round. -/
lemma place_period (ps : List (Vec2 ℚ)) (i : ℕ) : place ps (i + ps.length) = place ps i := by
  rw [place, place, corner, corner, Nat.add_mod_right]

/-! ## Simple polygons as loops -/

/-- A point between two corners that follow each other lies on an edge. -/
lemma onEdge_place (ps : List (Vec2 ℚ)) (i : ℕ) {t : ℚ} (ht : 0 ≤ t) (ht' : t ≤ 1) {q : Vec2 ℚ}
    (hq : (q.x, q.y) = place ps i + t • edge (place ps) i) :
    OnEdge (corner ps i, corner ps (i + 1)) q := by
  refine ⟨t, ht, ht', ?_⟩
  have hx := congrArg Prod.fst hq
  have hy := congrArg Prod.snd hq
  simp only [place, edge, Prod.fst_add, Prod.snd_add, Prod.smul_fst, Prod.smul_snd, Prod.fst_sub, Prod.snd_sub,
    smul_eq_mul] at hx hy
  cases q
  exact congrArg₂ Vec2.mk hx hy

/-- Of two numbers that are less than a period apart, one is the smaller one in its period. -/
lemma mod_cases {n i j : ℕ} (hij : i + 1 < j) (hj : j + 1 < i + n) :
    i % n + 1 < j % n ∧ j % n + 1 < i % n + n ∨ j % n + 1 < i % n ∧ i % n + 1 < j % n + n := by
  have hn : 0 < n := by omega
  have hi := Nat.mod_lt i hn
  have hmod : j % n = (i % n + (j - i)) % n := by
    rw [Nat.mod_add_mod, Nat.add_sub_cancel' (by omega)]
  rcases Nat.lt_or_ge (i % n + (j - i)) n with hlt | hge
  · rw [Nat.mod_eq_of_lt hlt] at hmod
    omega
  · have hwrap : i % n + (j - i) - n < n := by omega
    rw [Nat.mod_eq_sub_mod hge, Nat.mod_eq_of_lt hwrap] at hmod
    omega

/-- In a simple polygon no point lies on two edges that are not next to each other. -/
lemma Simple.apart_place (h : Simple ps) {i j : ℕ} (hij : i + 1 < j) (hj : j + 1 < i + ps.length) {s t : ℚ}
    (hs : 0 ≤ s) (hs' : s ≤ 1) (ht : 0 ≤ t) (ht' : t ≤ 1) :
    place ps i + s • edge (place ps) i ≠ place ps j + t • edge (place ps) j := by
  intro heq
  have hps : 0 < ps.length := by omega
  let q : Vec2 ℚ := ⟨(place ps i + s • edge (place ps) i).1, (place ps i + s • edge (place ps) i).2⟩
  have hqi : OnEdge (corner ps i, corner ps (i + 1)) q := onEdge_place ps i hs hs' rfl
  have hqj : OnEdge (corner ps j, corner ps (j + 1)) q := onEdge_place ps j ht ht' heq
  rcases mod_cases hij hj with ⟨hlt, hgt⟩ | ⟨hlt, hgt⟩
  · exact h.apart _ _ _ _ (getElem?_edges hps i) (getElem?_edges hps j) hlt hgt q hqi hqj
  · exact h.apart _ _ _ _ (getElem?_edges hps j) (getElem?_edges hps i) hlt hgt q hqj hqi

/-- No edge of a simple polygon is a point. -/
lemma Simple.edge_ne_zero (h : Simple ps) (hps : 4 ≤ ps.length) (i : ℕ) : edge (place ps) i ≠ 0 := by
  intro hzero
  -- An edge without length would join the edges before and after it.
  apply h.apart_place (i := i + 1) (j := i + (ps.length - 1)) (s := 0) (t := 1) (by omega) (by omega) (le_refl 0)
    one_pos.le one_pos.le (le_refl 1)
  have hlast : place ps (i + (ps.length - 1) + 1) = place ps i := by
    rw [Nat.add_assoc, Nat.sub_add_cancel (by omega), place_period]
  rw [edge, sub_eq_zero] at hzero
  rw [zero_smul, add_zero, one_smul, edge, hlast, hzero, add_sub_cancel]

/-- Edges that are next to each other meet in their corner only. -/
lemma Simple.joined_place (h : Simple ps) (hps : 0 < ps.length) {i : ℕ} {s t : ℚ} (hs : 0 ≤ s) (hs' : s ≤ 1)
    (ht : 0 ≤ t) (ht' : t ≤ 1)
    (heq : place ps (i + 1) + t • edge (place ps) (i + 1) = place ps i + s • edge (place ps) i) :
    t • edge (place ps) (i + 1) = 0 := by
  let q : Vec2 ℚ := ⟨(place ps (i + 1) + t • edge (place ps) (i + 1)).1,
    (place ps (i + 1) + t • edge (place ps) (i + 1)).2⟩
  have hq : OnEdge (corner ps i, corner ps (i + 1)) q := onEdge_place ps i hs hs' heq
  have hq' : OnEdge (corner ps (i + 1), corner ps (i + 2)) q := onEdge_place ps (i + 1) ht ht' rfl
  have hcorner := h.joined _ (mem_edgePairs hps i) q hq hq'
  have hplace : place ps (i + 1) + t • edge (place ps) (i + 1) = place ps (i + 1) :=
    Prod.ext (congrArg Vec2.x hcorner) (congrArg Vec2.y hcorner)
  rwa [add_eq_left] at hplace

/-- Hence no edge leads back over the one before it. -/
lemma Simple.bends (h : Simple ps) (hps : 4 ≤ ps.length) (i : ℕ) :
    Bends (edge (place ps) i) (edge (place ps) (i + 1)) := by
  intro x y hx hy hzero
  rcases hx.eq_or_lt with rfl | hx
  · rw [zero_smul, zero_add, smul_eq_zero] at hzero
    exact ⟨rfl, hzero.resolve_right (h.edge_ne_zero hps (i + 1))⟩
  -- The second edge would come back to a point of the first one.
  have hsum : 0 < x + y := by linarith
  have hstep : (x / (x + y)) • edge (place ps) i + (y / (x + y)) • edge (place ps) (i + 1) = 0 := by
    rw [div_eq_inv_mul, div_eq_inv_mul, mul_smul, mul_smul, ← smul_add, hzero, smul_zero]
  have hnext : place ps (i + 1) = place ps i + edge (place ps) i := by rw [edge, add_sub_cancel]
  have hback : place ps (i + 1) + (y / (x + y)) • edge (place ps) (i + 1) =
      place ps i + (1 - x / (x + y)) • edge (place ps) i := by
    rw [hnext, eq_neg_of_add_eq_zero_right hstep, sub_smul, one_smul]
    abel
  have hrest := h.joined_place (by omega) (sub_nonneg.mpr ((div_le_one hsum).mpr (by linarith)))
    (sub_le_self _ (by positivity)) (by positivity) ((div_le_one hsum).mpr (by linarith)) hback
  rw [hrest, add_zero, smul_eq_zero] at hstep
  exact absurd (hstep.resolve_right (h.edge_ne_zero hps i)) (div_pos hx hsum).ne'

/-- The corners of a simple polygon make up a simple loop. -/
lemma Simple.simpleLoop (h : Simple ps) (hps : 4 ≤ ps.length) : SimpleLoop ps.length (place ps) where
  period := place_period ps
  apart _ _ hij hj _ _ hs hs' ht ht' := h.apart_place hij hj hs hs' ht ht'
  bends := h.bends hps

/-! ## Turns -/

/-- The turn at a corner is one of the turns. -/
lemma cross_edge_mem_turns (hps : 0 < ps.length) (i : ℕ) :
    cross (edge (place ps) i) (edge (place ps) (i + 1)) ∈ turns ps :=
  List.mem_map.mpr ⟨_, mem_edgePairs hps i, rfl⟩

/-- A polygon of four corners or more is cut into a fan only if it passes for convex. -/
lemma isConvex_of_takesFan (hps : 4 ≤ ps.length) (hfan : takesFan ps = true) : isConvex ps = true := by
  have hthree : (ps.length == 3) = false := by
    rw [beq_eq_false_iff_ne]
    omega
  rw [takesFan, hthree, Bool.false_or, Bool.and_eq_true] at hfan
  exact hfan.2

/-- The sign of a turn that is not too small counts. -/
lemma signOf_mem_turnSigns {t : ℚ} (ht : t ∈ turns ps) (hclear : flatness < |t|) :
    (if t < 0 then -1 else 1) ∈ turnSigns ps := by
  have habs : Scalar.abs t = |t| := by
    rw [Scalar.abs]
    split_ifs with hneg
    · exact (abs_of_neg hneg).symm
    · exact (abs_of_nonneg (not_lt.mp hneg)).symm
  refine List.mem_map.mpr ⟨t, List.mem_filter.mpr ⟨ht, ?_⟩, ?_⟩
  · rw [habs]
    simpa using hclear
  · rw [Scalar.signOf, if_pos (beq_self_eq_true t)]

/-- What passes for convex has all these signs the same. -/
lemma eq_of_isConvex (hconvex : isConvex ps = true) : ∃ sign, ∀ s ∈ turnSigns ps, s = sign := by
  rw [isConvex] at hconvex
  cases hsigns : turnSigns ps with
  | nil => exact ⟨0, fun s hs => by cases hs⟩
  | cons sign rest =>
    rw [hsigns] at hconvex
    refine ⟨sign, List.forall_mem_cons.mpr ⟨rfl, fun s hs => ?_⟩⟩
    exact eq_of_beq (List.all_eq_true.mp hconvex s hs)

/-- A polygon that is cut into a fan turns to one side only if all its turns count. -/
lemma turns_oneSided (hps : 4 ≤ ps.length) (hfan : takesFan ps = true)
    (hclear : ∀ t ∈ turns ps, t ≠ 0 → flatness < |t|) : (∀ t ∈ turns ps, 0 ≤ t) ∨ ∀ t ∈ turns ps, t ≤ 0 := by
  obtain ⟨sign, hsign⟩ := eq_of_isConvex (isConvex_of_takesFan hps hfan)
  have hturn : ∀ t ∈ turns ps, t ≠ 0 → (if t < 0 then -1 else 1) = sign := fun t ht hne =>
    hsign _ (signOf_mem_turnSigns ht (hclear t ht hne))
  by_cases hminus : sign = -1
  · right
    intro t ht
    by_contra hpos
    have hpos := not_le.mp hpos
    have hone := hturn t ht hpos.ne'
    rw [if_neg hpos.not_gt, hminus] at hone
    norm_num at hone
  · left
    intro t ht
    by_contra hneg
    have hneg := not_le.mp hneg
    have hone := hturn t ht hneg.ne
    rw [if_pos hneg] at hone
    exact hminus hone.symm

/-! ## Areas -/

/-- The areas of the triangles between some corners, three for each. -/
def triangleAreas (ps : List (Vec2 ℚ)) (indices : List ℕ) : List ℚ :=
  (triples indices).map fun t => signedArea [ps.getD t.1 ⟨0, 0⟩, ps.getD t.2.1 ⟨0, 0⟩, ps.getD t.2.2 ⟨0, 0⟩]

/-- The edges of a polygon, counted by its corners. -/
lemma closedPairs_eq (ps : List (Vec2 ℚ)) :
    closedPairs ps = (List.range ps.length).map fun i => (corner ps i, corner ps (i + 1)) := by
  apply List.ext_getElem?
  intro i
  rcases Nat.lt_or_ge i ps.length with hi | hi
  · have hedge := getElem?_edges (Nat.zero_lt_of_lt hi) i
    rw [Nat.mod_eq_of_lt hi] at hedge
    rw [hedge, List.getElem?_map, List.getElem?_range hi, Option.map_some]
  · rw [List.getElem?_eq_none (by rwa [length_closedPairs]), List.getElem?_eq_none (by simpa using hi)]

/-- The area of a polygon as a sum over its corners. -/
lemma signedArea_eq (ps : List (Vec2 ℚ)) :
    signedArea ps = (∑ i ∈ Finset.range ps.length, cross (place ps i) (place ps (i + 1))) / 2 := by
  have hfold : ∀ (m : ℕ), ((List.range m).map fun i => (corner ps i, corner ps (i + 1))).foldl
      (fun (sum : ℚ) e => sum + (e.1.x * e.2.y - e.2.x * e.1.y)) 0 =
        ∑ i ∈ Finset.range m, cross (place ps i) (place ps (i + 1)) := by
    intro m
    induction m with
    | zero => rfl
    | succ m ih =>
      rw [List.range_succ, List.map_append, List.foldl_append, ih, Finset.sum_range_succ]
      simp only [List.map_cons, List.map_nil, List.foldl_cons, List.foldl_nil, cross, place]
      ring
  have harea : signedArea ps = (closedPairs ps).foldl
      (fun (sum : ℚ) e => sum + (e.1.x * e.2.y - e.2.x * e.1.y)) 0 * 0.5 := rfl
  rw [harea, closedPairs_eq, hfold]
  ring

/-- The area of a triangle. -/
lemma signedArea_triangle (a b c : Vec2 ℚ) :
    signedArea [a, b, c] = cross ((b.x, b.y) - (a.x, a.y)) ((c.x, c.y) - (a.x, a.y)) / 2 := by
  have harea : signedArea [a, b, c] =
      (0 + (a.x * b.y - b.x * a.y) + (b.x * c.y - c.x * b.y) + (c.x * a.y - a.x * c.y)) * 0.5 := rfl
  rw [harea, cross]
  simp only [Prod.mk_sub_mk]
  ring

/-- The triangles of a fan are spanned by the directions from the first corner. -/
lemma triangleAreas_fan (hps : 2 ≤ ps.length) : triangleAreas ps (fan ps.length) =
    (List.range (ps.length - 2)).map fun i =>
      cross (place ps (i + 1) - place ps 0) (place ps (i + 2) - place ps 0) / 2 := by
  rw [triangleAreas, triples_fan, List.map_map]
  apply List.map_congr_left
  intro i hi
  rw [List.mem_range] at hi
  have hcorner : ∀ j < ps.length, ps.getD j ⟨0, 0⟩ = corner ps j := by
    intro j hj
    rw [corner, Nat.mod_eq_of_lt hj]
  rw [Function.comp_apply, signedArea_triangle, hcorner 0 (by omega), hcorner (i + 1) (by omega),
    hcorner (i + 2) (by omega)]
  rfl

/-- A fan has the area of its polygon. -/
lemma sum_triangleAreas_fan (hps : 2 ≤ ps.length) : (triangleAreas ps (fan ps.length)).sum = signedArea ps := by
  have hclosed : place ps ps.length = place ps 0 := by
    rw [← place_period ps 0, zero_add]
  have hpartial : ∀ m, ((List.range m).map fun i =>
      cross (place ps (i + 1) - place ps 0) (place ps (i + 2) - place ps 0) / 2).sum =
      (∑ i ∈ Finset.range (m + 1), cross (place ps i) (place ps (i + 1)) +
        cross (place ps (m + 1)) (place ps 0)) / 2 := by
    intro m
    induction m with
    | zero =>
      rw [List.range_zero, List.map_nil, List.sum_nil, Finset.sum_range_one, cross, cross]
      ring
    | succ m ih =>
      rw [List.range_succ, List.map_append, List.sum_append, ih, Finset.sum_range_succ _ (m + 1), List.map_singleton,
        List.sum_singleton]
      simp only [cross, Prod.fst_sub, Prod.snd_sub]
      ring
  obtain ⟨m, hm⟩ : ∃ m, ps.length = m + 2 := ⟨ps.length - 2, by omega⟩
  rw [triangleAreas_fan hps, hpartial, signedArea_eq, hm, Nat.add_sub_cancel, Finset.sum_range_succ _ (m + 1),
    ← hclosed, hm]

/-- The sizes of some numbers amount to the size of their sum exactly if no two of them have opposite signs. -/
lemma sum_abs_eq_iff (xs : List ℚ) :
    (xs.map (|·|)).sum = |xs.sum| ↔ (∀ x ∈ xs, 0 ≤ x) ∨ ∀ x ∈ xs, x ≤ 0 := by
  have hid : (xs.map fun x => x).sum = xs.sum := by rw [List.map_id']
  have hneg : (xs.map fun x => -x).sum = -xs.sum := (List.sum_neg xs).symm
  constructor
  · intro hsum
    by_contra hboth
    push Not at hboth
    obtain ⟨⟨x, hx, hxneg⟩, y, hy, hypos⟩ := hboth
    have habove := List.sum_lt_sum (fun x => x) (|·|) (fun i _ => le_abs_self i)
      ⟨x, hx, hxneg.trans (abs_pos.mpr hxneg.ne)⟩
    have hbelow := List.sum_lt_sum (fun x => -x) (|·|) (fun i _ => neg_le_abs i)
      ⟨y, hy, (neg_neg_of_pos hypos).trans (abs_pos.mpr hypos.ne')⟩
    rw [hid, hsum] at habove
    rw [hneg, hsum] at hbelow
    rcases abs_choice xs.sum with habs | habs
    · exact habove.ne' habs
    · exact hbelow.ne' habs
  · rintro (hpos | hneg')
    · rw [List.map_congr_left fun x hx => abs_of_nonneg (hpos x hx), hid, abs_of_nonneg (List.sum_nonneg hpos)]
    · have hsum : xs.sum ≤ 0 := by
        rw [← neg_nonneg, ← hneg]
        exact List.sum_nonneg (List.forall_mem_map.mpr fun x hx => neg_nonneg.mpr (hneg' x hx))
      rw [List.map_congr_left fun x hx => abs_of_nonpos (hneg' x hx), hneg, abs_of_nonpos hsum]

/-- The triangles of a fan over a simple polygon that turns to one side only all face the same way. -/
lemma triangleAreas_oneSided (h : Simple ps) (hps : 4 ≤ ps.length)
    (hturns : (∀ t ∈ turns ps, 0 ≤ t) ∨ ∀ t ∈ turns ps, t ≤ 0) :
    (∀ a ∈ triangleAreas ps (fan ps.length), 0 ≤ a) ∨ ∀ a ∈ triangleAreas ps (fan ps.length), a ≤ 0 := by
  have hloop := h.simpleLoop hps
  have hmem : ∀ i, cross (edge (place ps) i) (edge (place ps) (i + 1)) ∈ turns ps :=
    cross_edge_mem_turns (by omega)
  have hfan : ∀ i, cross (place ps (i + 1) - place ps 0) (place ps (i + 2) - place ps 0) =
      cross (edge (place ps) (i + 1)) (place ps 0 - place ps (i + 1)) := by
    intro i
    simp only [cross, edge, Prod.fst_sub, Prod.snd_sub]
    ring
  rw [triangleAreas_fan (by omega), List.forall_mem_map, List.forall_mem_map]
  simp only [hfan]
  rcases hturns with hleft | hright
  · left
    intro i _
    exact div_nonneg (hloop.left_of_edge (by omega) (fun i => hleft _ (hmem i)) (i + 1) 0) two_pos.le
  · right
    intro i _
    exact div_nonpos_of_nonpos_of_nonneg
      (hloop.right_of_edge (by omega) (fun i => hright _ (hmem i)) (i + 1) 0) two_pos.le

/-! ## A test for simple polygons -/

/-- How far a point lies to the left of an edge. -/
def side (e : Vec2 ℚ × Vec2 ℚ) (q : Vec2 ℚ) : ℚ :=
  (e.2.x - e.1.x) * (q.y - e.1.y) - (e.2.y - e.1.y) * (q.x - e.1.x)

/-- An edge lies on one side of another one. -/
def Beside (e f : Vec2 ℚ × Vec2 ℚ) : Prop := 0 < side e f.1 ∧ 0 < side e f.2 ∨ side e f.1 < 0 ∧ side e f.2 < 0

/-- Two edges have a corner in common, and the second one leaves the line of the first one or goes on along it. -/
def Continues (e f : Vec2 ℚ × Vec2 ℚ) : Prop :=
  e.2 = f.1 ∧ (edgeTurn e f ≠ 0 ∨ 0 < (e.2.x - e.1.x) * (f.2.x - f.1.x) + (e.2.y - e.1.y) * (f.2.y - f.1.y))

/-- Of any two edges that are not next to each other, one lies on one side of the other one. -/
def Checked (ps : List (Vec2 ℚ)) : Prop :=
  (∀ e ∈ closedPairs (closedPairs ps), Continues e.1 e.2) ∧
  ∀ i < ps.length, ∀ j < ps.length, i + 1 < j → j + 1 < i + ps.length →
    Beside (corner ps i, corner ps (i + 1)) (corner ps j, corner ps (j + 1)) ∨
    Beside (corner ps j, corner ps (j + 1)) (corner ps i, corner ps (i + 1))

instance (e f : Vec2 ℚ × Vec2 ℚ) : Decidable (Beside e f) := inferInstanceAs (Decidable (_ ∨ _))

instance (e f : Vec2 ℚ × Vec2 ℚ) : Decidable (Continues e f) := inferInstanceAs (Decidable (_ ∧ _))

instance (ps : List (Vec2 ℚ)) : Decidable (Checked ps) := inferInstanceAs (Decidable (_ ∧ _))

/-- Edges that lie beside each other have no common point. -/
lemma Beside.not_onEdge {e f : Vec2 ℚ × Vec2 ℚ} (h : Beside e f) {q : Vec2 ℚ} (he : OnEdge e q) : ¬ OnEdge f q := by
  rintro ⟨t, ht, ht', hq⟩
  obtain ⟨s, -, -, hs⟩ := he
  have hzero : side e q = 0 := by
    rw [hs, side]
    ring
  have hconvex : side e q = (1 - t) * side e f.1 + t * side e f.2 := by
    rw [hq, side, side, side]
    ring
  rw [hzero] at hconvex
  have ht'' : 0 ≤ 1 - t := sub_nonneg.mpr ht'
  rcases h with ⟨h₁, h₂⟩ | ⟨h₁, h₂⟩
  · exact (convex_Ioi (0 : ℚ) h₁ h₂ ht'' ht (by ring)).ne hconvex
  · exact (convex_Iio (0 : ℚ) h₁ h₂ ht'' ht (by ring)).ne' hconvex

/-- Edges of which one continues the other meet in their corner only. -/
lemma Continues.eq_corner {e f : Vec2 ℚ × Vec2 ℚ} (h : Continues e f) {q : Vec2 ℚ} (he : OnEdge e q)
    (hf : OnEdge f q) : q = e.2 := by
  obtain ⟨s, -, hs, hq⟩ := he
  obtain ⟨t, ht, -, hq'⟩ := hf
  obtain ⟨hcorner, hturn⟩ := h
  have hx := congrArg Vec2.x (hq.symm.trans hq')
  have hy := congrArg Vec2.y (hq.symm.trans hq')
  simp only [← hcorner] at hx hy
  have hend : 1 - s = 0 := by
    rcases hturn with hturn | hdot
    · refine (mul_eq_zero.mp ?_).resolve_right hturn
      simp only [edgeTurn, ← hcorner]
      linear_combination (e.2.y - f.2.y) * hx - (e.2.x - f.2.x) * hy
    · simp only [← hcorner] at hdot
      have hnorm : 0 ≤ t * ((f.2.x - e.2.x) * (f.2.x - e.2.x) + (f.2.y - e.2.y) * (f.2.y - e.2.y)) :=
        mul_nonneg ht (add_nonneg (mul_self_nonneg _) (mul_self_nonneg _))
      have hback : (1 - s) * ((e.2.x - e.1.x) * (f.2.x - e.2.x) + (e.2.y - e.1.y) * (f.2.y - e.2.y)) ≤ 0 := by
        linear_combination hnorm - (f.2.x - e.2.x) * hx - (f.2.y - e.2.y) * hy
      have := nonpos_of_mul_nonpos_left hback hdot
      linarith
  rw [hq, show s = 1 by linarith, one_mul, one_mul, add_sub_cancel, add_sub_cancel]

/-- The edge at a place. -/
lemma eq_of_getElem?_closedPairs {i : ℕ} {e : Vec2 ℚ × Vec2 ℚ} (he : (closedPairs ps)[i]? = some e) :
    i < ps.length ∧ e = (corner ps i, corner ps (i + 1)) := by
  have hi : i < ps.length := by
    have := (List.getElem?_eq_some_iff.mp he).1
    rwa [length_closedPairs] at this
  have hedge := getElem?_edges (Nat.zero_lt_of_lt hi) i
  rw [Nat.mod_eq_of_lt hi, he] at hedge
  exact ⟨hi, Option.some.inj hedge⟩

/-- A polygon that passes the test is simple. -/
lemma simple_of_checked (h : Checked ps) : Simple ps where
  apart i j e f he hf hij hj q hqe hqf := by
    obtain ⟨hi, rfl⟩ := eq_of_getElem?_closedPairs he
    obtain ⟨hj', rfl⟩ := eq_of_getElem?_closedPairs hf
    rcases h.2 i hi j hj' hij hj with hbeside | hbeside
    · exact hbeside.not_onEdge hqe hqf
    · exact hbeside.not_onEdge hqf hqe
  joined e he _ := (h.1 e he).eq_corner

/-! ## Polygons that are cut into fans -/

/-- A simple polygon that is cut into a fan is covered by its triangles without overlap exactly if these face the
same way. They do if the polygon turns to one side only, however small it is, hence if every corner that is not
straight turns by more than what counts as none. -/
theorem triangulate_covers (ps : List (Vec2 ℚ)) (hps : 4 ≤ ps.length) (hfan : takesFan ps = true) (h : Simple ps) :
    (∀ clip, triangulate clip ps = .ok (fan ps.length)) ∧
    (triangleAreas ps (fan ps.length)).length = ps.length - 2 ∧
    (triangleAreas ps (fan ps.length)).sum = signedArea ps ∧
    (((triangleAreas ps (fan ps.length)).map (|·|)).sum = |signedArea ps| ↔
      (∀ a ∈ triangleAreas ps (fan ps.length), 0 ≤ a) ∨ ∀ a ∈ triangleAreas ps (fan ps.length), a ≤ 0) ∧
    (((∀ t ∈ turns ps, 0 ≤ t) ∨ ∀ t ∈ turns ps, t ≤ 0) →
      ((triangleAreas ps (fan ps.length)).map (|·|)).sum = |signedArea ps|) ∧
    ((∀ t ∈ turns ps, t ≠ 0 → flatness < |t|) →
      ((triangleAreas ps (fan ps.length)).map (|·|)).sum = |signedArea ps|) := by
  have hsum : (triangleAreas ps (fan ps.length)).sum = signedArea ps := sum_triangleAreas_fan (by omega)
  have hiff := sum_abs_eq_iff (triangleAreas ps (fan ps.length))
  rw [hsum] at hiff
  refine ⟨?_, ?_, hsum, hiff, ?_, ?_⟩
  · intro clip
    rw [triangulate, if_neg (by omega), if_pos hfan]
  · rw [triangleAreas_fan (by omega), List.length_map, List.length_range]
  · exact fun hturns => hiff.mpr (triangleAreas_oneSided h hps hturns)
  · exact fun hclear => hiff.mpr (triangleAreas_oneSided h hps (turns_oneSided hps hfan hclear))

/-- A house front with a straight corner in its ground line. -/
def houseFront : List (Vec2 ℚ) := [⟨0, 0⟩, ⟨2, 0⟩, ⟨4, 0⟩, ⟨4, 3⟩, ⟨2, 5⟩, ⟨0, 3⟩]

/-- The fan covers the house front, in spite of its straight corner. -/
theorem triangulate_covers_houseFront :
    (4 ≤ houseFront.length ∧ takesFan houseFront = true ∧ Simple houseFront ∧
      ∀ t ∈ turns houseFront, t ≠ 0 → flatness < |t|) ∧
    ((triangleAreas houseFront (fan houseFront.length)).map (|·|)).sum = |signedArea houseFront| := by
  have hsimple : Simple houseFront := simple_of_checked (by decide +kernel)
  have hclear : ∀ t ∈ turns houseFront, t ≠ 0 → flatness < |t| := by decide +kernel
  obtain ⟨-, -, -, -, -, hcovers⟩ := triangulate_covers houseFront (by decide) (by decide +kernel) hsimple
  exact ⟨⟨by decide, by decide +kernel, hsimple, hclear⟩, hcovers hclear⟩

/-- An arrowhead with a very short edge in its notch. -/
def arrowhead : List (Vec2 ℚ) := [⟨0, 0⟩, ⟨1 / 2, 1 / 2⟩, ⟨1 / 2 + 1 / 2 ^ 33, 1 / 2⟩, ⟨1, 0⟩, ⟨1 / 2, 1⟩]

/-- The notch of an arrowhead may turn by so little at each of its corners that none of them counts. -/
theorem triangulate_overlaps_arrowhead :
    4 ≤ arrowhead.length ∧ takesFan arrowhead = true ∧ Simple arrowhead ∧
    (∀ clip, triangulate clip arrowhead = .ok (fan arrowhead.length)) ∧
    ((triangleAreas arrowhead (fan arrowhead.length)).map (|·|)).sum ≠ |signedArea arrowhead| := by
  refine ⟨by decide, by decide +kernel, simple_of_checked (by decide +kernel), ?_, by decide +kernel⟩
  intro clip
  rw [triangulate, if_neg (by decide), if_pos (by decide +kernel)]

end Polygon

end BuildingModel
