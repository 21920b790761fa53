import BuildingModel.Shape.EarClip
import BuildingModel.Shape.Polygon
import Mathlib

/-!
# Triangles refer to points

Ear clipping moves nodes between rings, but every node keeps the point of the polygon that it was made for, and a
node that a diagonal adds stands for the point of an older one. So a property of rings that does not look at links is
kept by whatever is cut off, in whatever order (`Rings.Stable`). Two such properties are that nodes and triangles name
points of the polygon (`Rings.Within`), and that a node has the coordinates of the point that it names, in the list of
the outer loop and then of the holes (`Rings.Labelled`). A fan names points of its polygon as well. So with any
clipper that gives triples of places in this list, as ear clipping does (`earClip_inRange`), the triangulation of a
polygon with holes gives such triples (`Polygon.triangulateWithHoles_within`).
-/

namespace BuildingModel

namespace Rings

variable {α : Type} [Scalar α]

/-! ## What ear clipping keeps -/

/-- A property of rings that is kept when nodes are linked and lined up in another way, when a node is doubled and
when a triangle is cut off. -/
structure Stable (P : Rings α → Prop) : Prop where
  relinked : ∀ {r s : Rings α}, P r → s.points = r.points → s.vertices = r.vertices → s.triangles = r.triangles →
    s.grid = r.grid → P s
  double : ∀ {r : Rings α}, P r → ∀ a, P (r.add (r.point a) (r.vertex a)).1
  emit : ∀ {r : Rings α}, P r → ∀ a b c, P (r.emit a b c)

omit [Scalar α] in
/-- A property of the rings in a pair, when the pair has been taken apart. -/
lemma holds_of_eq {β : Type} {P : Rings α → Prop} {x : Rings α × β} {r : Rings α} {b : β} (h : P x.1)
    (hx : x = (r, b)) : P r := by
  subst hx
  exact h

namespace Stable

variable {P : Rings α → Prop} {r : Rings α}

/-- Linking two nodes keeps a stable property. -/
lemma join (hP : Stable P) (h : P r) (a b : Nat) : P (r.join a b) := hP.relinked h rfl rfl rfl rfl

lemma remove (hP : Stable P) (h : P r) (p : Nat) : P (r.remove p) := hP.relinked h rfl rfl rfl rfl

lemma lineUp (hP : Stable P) (h : P r) (start : Nat) : P (r.lineUp start) := hP.relinked h rfl rfl rfl rfl

/-- Adding a node to a ring keeps it if adding the node does. -/
lemma addAfter (hP : Stable P) {point : Vec2 α} {v : Nat} (h : P (r.add point v).1) (last : Option Nat) :
    P (r.addAfter last point v).1 := by
  cases last with
  | none => exact h
  | some last => exact hP.join (hP.join h _ _) _ _

/-- Dropping superfluous nodes keeps it, for however many steps. -/
lemma filterUpTo (hP : Stable P) (h : P r) (bound p stop : Nat) : P (Rings.filterUpTo bound r p stop).1 := by
  fun_induction Rings.filterUpTo bound r p stop with
  | case1 => exact h
  | case2 => exact hP.remove h _
  | case3 => rename_i ih; exact ih (hP.remove h _)
  | case4 => exact h
  | case5 => exact h
  | case6 => rename_i ih; exact ih h

/-- This holds of the whole filter. -/
lemma filter (hP : Stable P) (h : P r) (p stop : Nat) : P (r.filter p stop).1 := hP.filterUpTo h _ p stop

/-- Cutting a ring in two keeps it. -/
lemma split (hP : Stable P) (h : P r) (a b : Nat) : P (r.split a b).1 := by
  have hdoubled := hP.double (hP.double h a) b
  exact hP.join (hP.join (hP.join (hP.join hdoubled _ _) _ _) _ _) _ _

/-- Joining a hole to the outer ring keeps it. -/
lemma joinHole (hP : Stable P) {state : Rings α × Nat} (h : P state.1) (hole : Nat) :
    P (Rings.joinHole state hole).1 := by
  obtain ⟨r, outer⟩ := state
  have hsplit := hP.split h (r.bridge hole outer) hole
  exact hP.filter (hP.filter hsplit _ _) outer _

/-- Joining all holes keeps it. -/
lemma joinHoles (hP : Stable P) (h : P r) (outer : Nat) (lefts : List Nat) : P (r.joinHoles outer lefts).1 := by
  rw [Rings.joinHoles]
  generalize lefts.mergeSort _ = ordered
  have hfold : ∀ (ordered : List Nat) (state : Rings α × Nat), P state.1 →
      P (ordered.foldl Rings.joinHole state).1 := by
    intro ordered
    induction ordered with
    | nil => exact fun _ h => h
    | cons hole ordered ih => exact fun _ h => ih _ (hP.joinHole h hole)
  exact hfold ordered (r, outer) h

/-- Cutting off ears in one pass keeps it. -/
lemma clipUpTo (hP : Stable P) (h : P r) (bound ear stop prev next : Nat) :
    P (Rings.clipUpTo bound r ear stop prev next).1 := by
  fun_induction Rings.clipUpTo bound r ear stop prev next with
  | case1 => exact h
  | case2 => exact h
  | case3 => rename_i ih; exact ih (hP.remove (hP.emit h _ _ _) _)
  | case4 => rename_i ih; exact ih h

/-- Cutting off crossings keeps it. -/
lemma cureUpTo (hP : Stable P) (h : P r) (bound p start : Nat) : P (Rings.cureUpTo bound r p start).1 := by
  fun_induction Rings.cureUpTo bound r p start with
  | case1 => exact h
  | case2 bound r p start a next b r' p' q hcut =>
    split at hcut
    · exact holds_of_eq (hP.remove (hP.remove (hP.emit h _ _ _) _) _) hcut
    · exact holds_of_eq h hcut
  | case3 bound r p start a next b r' p' start' hcut q hne ih =>
    apply ih
    split at hcut
    · exact holds_of_eq (hP.remove (hP.remove (hP.emit h _ _ _) _) _) hcut
    · exact holds_of_eq h hcut

/-- All passes together keep it. The recursion is that of the passes. -/
lemma clip (hP : Stable P) (h : P r) (bound ear : Nat) (pass : Pass) : P (Rings.clip bound r ear pass) := by
  fun_induction Rings.clip bound r ear pass with
  | case1 => exact h
  | case2 bound r ear pass rounds lined r' start hclip =>
    refine holds_of_eq (hP.clipUpTo ?_ _ _ _ _ _) hclip
    cases pass with
    | first => exact hP.lineUp h ear
    | filtered => exact h
    | cured => exact h
  | case3 bound r ear rounds r' p start hne r'' q hfilter lined hclip ih =>
    have hr' : P r' := holds_of_eq (hP.clipUpTo (hP.lineUp h ear) _ _ _ _ _) hclip
    exact ih (holds_of_eq (hP.filter hr' _ _) hfilter)
  | case4 bound r ear rounds r' p start hne r'' q hcure lined hclip ih =>
    have hr' : P r' := holds_of_eq (hP.clipUpTo h _ _ _ _ _) hclip
    exact ih (holds_of_eq (hP.cureUpTo hr' _ _ _) hcure)
  | case5 bound r ear rounds r' p start hne hnone lined hclip =>
    exact holds_of_eq (hP.clipUpTo h _ _ _ _ _) hclip
  | case6 bound r ear rounds r' p start hne a b hdiagonal r₁ c hsplit r₂ a' ha r₃ c' hc lined hclip ih₂ ih₁ =>
    have hr' : P r' := holds_of_eq (hP.clipUpTo h _ _ _ _ _) hclip
    have h₁ : P r₁ := holds_of_eq (hP.split hr' a b) hsplit
    have h₂ : P r₂ := holds_of_eq (hP.filter h₁ _ _) ha
    exact ih₁ (ih₂ (holds_of_eq (hP.filter h₂ _ _) hc))

/-! ## Rings of loops -/

/-- Making a ring of points keeps it if adding each of the points does. -/
lemma addRing (hP : Stable P) (h : P r) {points : List (Vec2 α)} {start : Nat}
    (hadd : ∀ r v, v ∈ points.zipIdx start → P r → P (r.add v.1 v.2).1) (clockwise : Bool) :
    P (r.addRing points start clockwise).1 := by
  rw [Rings.addRing]
  generalize hordered : (if clockwise == decide (0 < loopArea points) then points.zipIdx start
    else (points.zipIdx start).reverse) = ordered
  have hmem : ∀ v ∈ ordered, v ∈ points.zipIdx start := by
    intro v hv
    rw [← hordered] at hv
    split at hv
    · exact hv
    · exact List.mem_reverse.mp hv
  generalize hfold : ordered.foldl _ _ = state
  have hstate : P state.1 := by
    rw [← hfold]
    refine List.foldlRecOn (motive := fun state : Rings α × Option Nat × Option Nat × α => P state.1)
      ordered _ h ?_
    rintro ⟨r, last, left, least⟩ hr ⟨point, v⟩ hv
    have hafter := hP.addAfter (hadd r _ (hmem _ hv) hr) last
    dsimp only
    split
    · exact hafter
    · exact hafter
  obtain ⟨r', last, left, least⟩ := state
  dsimp only
  split
  · exact hP.remove hstate _
  · exact hstate

/-- A loop of holes that adds a ring for each, numbered on from the rings before. -/
lemma addHoles (hP : Stable P) {β : Type} {f : Rings α × β × Nat → List (Vec2 α) → Rings α × β × Nat}
    (hring : ∀ state hole, (f state hole).1 = (state.1.addRing hole state.2.2 false).1)
    (hcount : ∀ state hole, (f state hole).2.2 = state.2.2 + hole.length)
    {holes : List (List (Vec2 α))} {state : Rings α × β × Nat} (h : P state.1)
    (hadd : ∀ r v, v ∈ holes.flatten.zipIdx state.2.2 → P r → P (r.add v.1 v.2).1) :
    P (holes.foldl f state).1 := by
  induction holes generalizing state with
  | nil => exact h
  | cons hole holes ih =>
    rw [List.flatten_cons, List.zipIdx_append] at hadd
    apply ih
    · rw [hring]
      exact hP.addRing h (fun r v hv => hadd r v (List.mem_append_left _ hv)) false
    · rw [hcount]
      exact fun r v hv => hadd r v (List.mem_append_right _ hv)

end Stable

end Rings

section EarClip

variable {α : Type} [Scalar α] {outer : List (Vec2 α)} {holes : List (List (Vec2 α))} {r : Rings α}

/-- The rings from which ears have been cut off until none was left. -/
def earRings (outer : List (Vec2 α)) (holes : List (List (Vec2 α))) : Option (Rings α) := do
  let (r, last, left) := Rings.empty.addRing outer 0 true
  let (r, lefts, count) := holes.foldl
    (fun (r, lefts, count) hole =>
      let (r, _, left) := Rings.addRing r hole count false
      (r, left :: lefts, count + hole.length))
    (r, [], outer.length)
  let _ ← left
  let lefts ← lefts.reverse.mapM id
  let (r, start) := r.joinHoles last lefts
  let r := if Rings.manyPoints ≤ count then r.putOn (.covering (outer :: holes)) else r
  guard (r.isPlaced start)
  return r.clip (4 * r.size + 4) start .first

/-- The indices of a polygon are those of the triangles that have been cut off. -/
lemma earClip_eq_map (outer : List (Vec2 α)) (holes : List (List (Vec2 α))) :
    earClip outer holes = (earRings outer holes).map fun r => r.triangles.toList := by
  simp only [earClip, earRings, Option.bind_eq_bind, Option.map_bind, Option.pure_def, Function.comp_def,
    Option.map_some]

/-- What holds when nodes have been made for all points, and still holds on the grid, holds in the end. -/
lemma Rings.Stable.earRings {P Q : Rings α → Prop} (hP : Stable P) (hQ : Stable Q) (hempty : P Rings.empty)
    (hadd : ∀ r v, v ∈ (outer ++ holes.flatten).zipIdx → P r → P (r.add v.1 v.2).1) (hkeep : ∀ r, P r → Q r)
    (hput : ∀ r g, P r → Q (r.putOn g)) (h : BuildingModel.earRings outer holes = some r) : Q r := by
  rw [List.zipIdx_append, Nat.zero_add] at hadd
  rw [BuildingModel.earRings] at h
  generalize hring : Rings.addRing Rings.empty outer 0 true = ring at h
  obtain ⟨r₁, last, left⟩ := ring
  have h₁ : P r₁ := holds_of_eq (hP.addRing hempty (fun r v hv => hadd r v (List.mem_append_left _ hv)) true) hring
  dsimp only at h
  generalize hfold : holes.foldl _ _ = state at h
  obtain ⟨r₂, lefts, count⟩ := state
  have h₂ : P r₂ := by
    refine holds_of_eq ?_ hfold
    exact hP.addHoles (fun _ _ => rfl) (fun _ _ => rfl) h₁ fun r v hv => hadd r v (List.mem_append_right _ hv)
  simp only [Option.bind_eq_bind, Option.bind_eq_some_iff, Option.pure_def, Option.some.injEq] at h
  obtain ⟨-, -, lefts, -, -, -, rfl⟩ := h
  have hjoined := hP.joinHoles h₂ last lefts
  generalize hplaced : (if Rings.manyPoints ≤ count then _ else _) = placed
  have hQplaced : Q placed := by
    rw [← hplaced]
    split
    · exact hput _ _ hjoined
    · exact hkeep _ hjoined
  exact hQ.clip hQplaced (4 * placed.size + 4) (r₂.joinHoles last lefts).2 .first

end EarClip

namespace Rings

variable {α : Type} [Scalar α] {r : Rings α} {n : Nat}

/-! ## Places of points -/

/-- The nodes stand for the first `n` points, and whole triangles between these have been cut off. -/
structure Within (r : Rings α) (n : Nat) : Prop where
  vertices : ∀ v ∈ r.vertices, v < n
  triangles : ∀ v ∈ r.triangles, v < n
  complete : 3 ∣ r.triangles.size

omit [Scalar α] in
/-- A node stands for one of the points, also if there is no such node. -/
lemma Within.vertex_lt (h : r.Within n) (hn : 0 < n) (p : Nat) : r.vertex p < n := by
  rw [vertex, Array.getD_eq_getD_getElem?]
  cases hp : r.vertices[p]? with
  | none => exact hn
  | some v => exact h.vertices v (Array.mem_of_getElem? hp)

omit [Scalar α] in
/-- A new node may stand for any of the points. -/
lemma Within.add (h : r.Within n) (point : Vec2 α) {v : Nat} (hv : v < n) :
    (r.add point v).1.Within n where
  vertices u hu := by
    rcases Array.mem_push.mp hu with hu | rfl
    · exact h.vertices u hu
    · exact hv
  triangles := h.triangles
  complete := h.complete

omit [Scalar α] in
/-- A triangle between nodes is one between points. -/
lemma Within.emit (h : r.Within n) (hn : 0 < n) (a b c : Nat) : (r.emit a b c).Within n where
  vertices := h.vertices
  triangles v hv := by
    rcases Array.mem_push.mp hv with hv | rfl
    · rcases Array.mem_push.mp hv with hv | rfl
      · rcases Array.mem_push.mp hv with hv | rfl
        · exact h.triangles v hv
        · exact h.vertex_lt hn a
      · exact h.vertex_lt hn b
    · exact h.vertex_lt hn c
  complete := by
    have hsize : (r.emit a b c).triangles.size = r.triangles.size + 3 := by simp [Rings.emit]
    rw [hsize]
    exact Nat.dvd_add h.complete (Nat.dvd_refl 3)

/-- Standing for the first points is stable. -/
lemma stable_within (hn : 0 < n) : Stable fun r : Rings α => r.Within n where
  relinked h _ hv ht _ := ⟨hv ▸ h.vertices, ht ▸ h.triangles, ht ▸ h.complete⟩
  double h a := h.add _ (h.vertex_lt hn a)
  emit h a b c := h.emit hn a b c

lemma within_empty (hn : 0 < n) : (empty : Rings α).Within n where
  vertices v hv := by
    cases Array.mem_singleton.mp hv
    exact hn
  triangles v hv := absurd hv (Array.not_mem_empty v)
  complete := Nat.dvd_zero 3

/-! ## Coordinates of nodes -/

/-- Where a point of the polygon lies for the nodes: counted from the least corner of the grid, if there is one. -/
def located (r : Rings α) (q : Vec2 α) : Vec2 α :=
  match r.grid with
  | some g => q - g.low
  | none => q

/-- Every node has the coordinates of the point in the list that it stands for. Only node zero, and what is doubled
from it where a hole finds no bridge, names the first point without having its coordinates. -/
structure Labelled (r : Rings α) (ps : List (Vec2 α)) : Prop where
  size : r.points.size = r.vertices.size
  node : ∀ p, (∃ q, ps[r.vertex p]? = some q ∧ r.point p = r.located q) ∨
    r.vertex p = 0 ∧ (r.point p = ⟨0, 0⟩ ∨ r.point p = r.located ⟨0, 0⟩)

/-- The coordinates of a new node are those it is given. -/
lemma point_add (r : Rings α) (point : Vec2 α) (v p : Nat) :
    (r.add point v).1.point p = if p = r.points.size then point else r.point p := by
  simp only [add, Rings.point, Array.getD_eq_getD_getElem?, Array.getElem?_push]
  split
  · rfl
  · rfl

omit [Scalar α] in
/-- A new node stands for the point that it is given. -/
lemma vertex_add (r : Rings α) (point : Vec2 α) (v p : Nat) :
    (r.add point v).1.vertex p = if p = r.vertices.size then v else r.vertex p := by
  simp only [add, vertex, Array.getD_eq_getD_getElem?, Array.getElem?_push]
  split
  · rfl
  · rfl

variable {ps : List (Vec2 α)}

/-- A new node needs the coordinates of its point only. -/
lemma Labelled.add (h : r.Labelled ps) {point : Vec2 α} {v : Nat}
    (hnode : (∃ q, ps[v]? = some q ∧ point = r.located q) ∨
      v = 0 ∧ (point = ⟨0, 0⟩ ∨ point = r.located ⟨0, 0⟩)) : (r.add point v).1.Labelled ps where
  size := by simp [Rings.add, h.size]
  node p := by
    rw [point_add, vertex_add, h.size]
    split
    · exact hnode
    · exact h.node p

/-- Having the coordinates of the points is stable. -/
lemma stable_labelled (ps : List (Vec2 α)) : Stable fun r : Rings α => r.Labelled ps where
  relinked {r s} h hpoints hvertices _ hgrid := by
    have hpoint : ∀ p, s.point p = r.point p := fun p => by rw [Rings.point, hpoints, Rings.point]
    have hvertex : ∀ p, s.vertex p = r.vertex p := fun p => by rw [vertex, hvertices, vertex]
    have hlocated : ∀ q, s.located q = r.located q := fun q => by rw [located, hgrid, located]
    refine ⟨by rw [hpoints, hvertices, h.size], fun p => ?_⟩
    simp only [hpoint, hvertex, hlocated]
    exact h.node p
  double h a := h.add (h.node a)
  emit h _ _ _ := ⟨h.size, h.node⟩

/-- While there is no grid, nodes have the coordinates of the points themselves. -/
lemma stable_labelled_gridless (ps : List (Vec2 α)) :
    Stable fun r : Rings α => r.grid = none ∧ r.Labelled ps where
  relinked h hpoints hvertices htriangles hgrid :=
    ⟨hgrid.trans h.1, (stable_labelled ps).relinked h.2 hpoints hvertices htriangles hgrid⟩
  double h a := ⟨h.1, (stable_labelled ps).double h.2 a⟩
  emit h a b c := ⟨h.1, (stable_labelled ps).emit h.2 a b c⟩

lemma labelled_empty (ps : List (Vec2 α)) : (empty : Rings α).Labelled ps where
  size := rfl
  node p := by
    refine .inr ?_
    cases p with
    | zero => exact ⟨rfl, .inl rfl⟩
    | succ p => exact ⟨rfl, .inl rfl⟩

/-- Sorting nodes into a grid changes no coordinates. -/
lemma Labelled.putOn (h : r.Labelled ps) (hgrid : r.grid = none) (g : Grid α) : (r.putOn g).Labelled ps where
  size := (Array.size_map).trans h.size
  node p := by
    have hlocated : ∀ q, r.located q = q := fun q => by rw [located, hgrid]
    have hnode := h.node p
    simp only [hlocated, or_self] at hnode
    rcases Nat.lt_or_ge p r.points.size with hp | hp
    · have hpoint : (r.putOn g).point p = r.point p - g.low := by
        simp [Rings.putOn, Rings.point, hp]
      rw [hpoint]
      rcases hnode with ⟨q, hq, heq⟩ | ⟨hzero, heq⟩
      · exact .inl ⟨q, hq, by rw [heq]; rfl⟩
      · exact .inr ⟨hzero, .inr (by rw [heq]; rfl)⟩
    · have hpoint : (r.putOn g).point p = ⟨0, 0⟩ := by simp [Rings.putOn, Rings.point, hp]
      have hvertex : (r.putOn g).vertex p = 0 := by
        rw [h.size] at hp
        simp [Rings.putOn, vertex, hp]
      exact .inr ⟨hvertex, .inl hpoint⟩

end Rings

/-! ## Polygons -/

variable {α : Type} [Scalar α] {outer : List (Vec2 α)} {holes : List (List (Vec2 α))} {indices : List Nat}

/-- All triangles that are cut off lie between points of the polygon. -/
lemma earRings_within {r : Rings α} (h : earRings outer holes = some r) (houter : outer ≠ []) :
    r.Within (outer ++ holes.flatten).length := by
  have hpos : 0 < (outer ++ holes.flatten).length := by
    rw [List.length_append]
    exact Nat.add_pos_left (List.length_pos_iff.mpr houter) _
  refine (Rings.stable_within hpos).earRings (Rings.stable_within hpos) (Rings.within_empty hpos) ?_
    (fun _ h => h) (fun _ _ h => ⟨h.vertices, h.triangles, h.complete⟩) h
  intro r v hv hr
  exact hr.add _ ((List.snd_lt_add_of_mem_zipIdx hv).trans_eq (Nat.zero_add _))

/-- The nodes of ear clipping count the points of the outer loop and then those of the holes. -/
lemma earRings_labelled {r : Rings α} (h : earRings outer holes = some r) :
    r.Labelled (outer ++ holes.flatten) := by
  refine (Rings.stable_labelled_gridless _).earRings (Rings.stable_labelled _)
    ⟨rfl, Rings.labelled_empty (outer ++ holes.flatten)⟩ ?_ (fun _ h => h.2) (fun _ g h => h.2.putOn h.1 g) h
  rintro r v hv ⟨hgrid, hr⟩
  refine ⟨hgrid, hr.add (.inl ⟨v.1, List.mk_mem_zipIdx_iff_getElem?.mp hv, ?_⟩)⟩
  rw [Rings.located, hgrid]

/-- The clipper gives triples of places in the list of all points. -/
def Clipper.InRange (clip : Clipper α) : Prop :=
  ∀ outer holes indices, clip outer holes = some indices → outer ≠ [] →
    3 ∣ indices.length ∧ ∀ i ∈ indices, i < (outer ++ holes.flatten).length

/-- Ear clipping gives triples of places in the list of all points. -/
lemma earClip_inRange : Clipper.InRange (earClip : Clipper α) := by
  intro outer holes indices h houter
  rw [earClip_eq_map] at h
  obtain ⟨r, hr, rfl⟩ := Option.map_eq_some_iff.mp h
  have hwithin := earRings_within hr houter
  refine ⟨?_, ?_⟩
  · rw [Array.length_toList]
    exact hwithin.complete
  · intro i hi
    exact hwithin.triangles i (Array.mem_toList_iff.mp hi)

namespace Polygon

variable {clip : Clipper α}

/-- The triangles of a fan are triples of places of its points. -/
lemma fan_within {n : Nat} : 3 ∣ (fan n).length ∧ ∀ i ∈ fan n, i < n := by
  refine ⟨?_, ?_⟩
  · simp [fan]
  · intro i hi
    obtain ⟨k, hk, hi⟩ := List.mem_flatMap.mp hi
    have hk := List.mem_range.mp hk
    simp only [List.mem_cons, List.not_mem_nil, or_false] at hi
    omega

omit [Scalar α] in
/-- What a clipper gives are triples of places. -/
lemma clipped_within (hclip : Clipper.InRange clip) (h : clipped clip outer holes = .ok indices) (houter : outer ≠ []) :
    3 ∣ indices.length ∧ ∀ i ∈ indices, i < (outer ++ holes.flatten).length := by
  rw [clipped] at h
  split at h
  · cases h
    exact hclip outer holes indices ‹_› houter
  · cases h

/-- The triangles of a polygon are triples of places of its points. -/
lemma triangulate_within (hclip : Clipper.InRange clip) (h : triangulate clip outer = .ok indices) :
    3 ∣ indices.length ∧ ∀ i ∈ indices, i < outer.length := by
  rw [triangulate] at h
  split at h
  · cases h
  · split at h
    · cases h
      exact fan_within
    · have hclipped := clipped_within hclip h (by rintro rfl; contradiction)
      simpa using hclipped

/-- The triangles of a polygon with holes are triples of places in the list of its points. -/
theorem triangulateWithHoles_within (hclip : Clipper.InRange clip)
    (h : triangulateWithHoles clip outer holes = .ok indices) :
    3 ∣ indices.length ∧ ∀ i ∈ indices, i < (outer ++ (realHoles holes).flatten).length := by
  rw [triangulateWithHoles] at h
  split at h
  · rename_i hnone
    rw [hnone]
    simpa using triangulate_within hclip h
  · split at h
    · cases h
    · rename_i hreal hlength
      exact clipped_within hclip h (by rintro rfl; exact hlength (by simp))

/-- The triangles of ear clipping have been cut off rings. -/
lemma clipped_eq_ok (h : clipped earClip outer holes = .ok indices) :
    ∃ r, earRings outer holes = some r ∧ indices = r.triangles.toList := by
  rw [clipped] at h
  split at h
  · rename_i triangles hclip
    cases h
    rw [earClip_eq_map] at hclip
    obtain ⟨r, hr, heq⟩ := Option.map_eq_some_iff.mp hclip
    exact ⟨r, hr, heq.symm⟩
  · cases h

/-- The places in the triangles count the points of a list: they form the fan over it, or they have been cut off rings
whose nodes have the coordinates of the points in this list. -/
def CountedIn (outer : List (Vec2 α)) (holes : List (List (Vec2 α))) (ps : List (Vec2 α)) (indices : List Nat) : Prop :=
  indices = fan ps.length ∨
    ∃ r, earRings outer holes = some r ∧ indices = r.triangles.toList ∧ r.Labelled ps

/-- The triangles of a polygon with holes count the points of the outer loop, then those of the real holes. -/
lemma triangulateWithHoles_countedIn (h : triangulateWithHoles earClip outer holes = .ok indices) :
    CountedIn outer (realHoles holes) (outer ++ (realHoles holes).flatten) indices := by
  have hclipped : ∀ {real}, clipped earClip outer real = .ok indices →
      CountedIn outer real (outer ++ real.flatten) indices := by
    intro real hreal
    obtain ⟨r, hr, heq⟩ := clipped_eq_ok hreal
    exact .inr ⟨r, hr, heq, earRings_labelled hr⟩
  rw [triangulateWithHoles] at h
  split at h
  · rename_i hnone
    rw [hnone]
    rw [triangulate] at h
    split at h
    · cases h
    · split at h
      · cases h
        exact .inl (by simp)
      · exact hclipped h
  · split at h
    · cases h
    · exact hclipped h

end Polygon

end BuildingModel
