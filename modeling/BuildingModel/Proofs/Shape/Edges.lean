import BuildingModel.Proofs.Shape.WellFormed
import BuildingModel.Proofs.Space.Position
import BuildingModel.Shape.Profile
import Mathlib

/-!
# Directed edges

Directed edges are counted by weights that change their sign when an edge is turned round. Such a weight does not
see opposite edges, so that edges in which every edge occurs as often as its opposite have no weight, and only these
(`balanced_iff`). Weights are easier to handle than counts, since they can be carried along any map of the ends.
-/

namespace BuildingModel

variable {β γ : Type}

/-- A weight of directed edges that changes its sign when an edge is turned round. -/
def Alternating (w : β → β → ℤ) : Prop := ∀ a b, w b a = -w a b

/-- An edge from a point to itself has no weight. -/
lemma Alternating.self {w : β → β → ℤ} (hw : Alternating w) (a : β) : w a a = 0 := by
  have h := hw a a
  omega

/-- A weight of points is one of whatever has these points. -/
lemma Alternating.comap {w : β → β → ℤ} (hw : Alternating w) (f : γ → β) :
    Alternating fun a b => w (f a) (f b) := fun a b => hw (f a) (f b)

/-- The sum of differences is the difference of the sums. -/
lemma sum_map_sub {M : Type} [AddCommGroup M] (f g : β → M) (xs : List β) :
    (xs.map fun x => f x - g x).sum = (xs.map f).sum - (xs.map g).sum := by
  induction xs with
  | nil => simp
  | cons x xs ih =>
    simp only [List.map_cons, List.sum_cons, ih]
    abel

/-- The weight of some edges together. -/
def flow (w : β → β → ℤ) (edges : List (β × β)) : ℤ := (edges.map fun e => w e.1 e.2).sum

section Flow

variable {w : β → β → ℤ} {edges edges' : List (β × β)}

@[simp]
lemma flow_nil : flow w [] = 0 := rfl

@[simp]
lemma flow_cons (e : β × β) : flow w (e :: edges) = w e.1 e.2 + flow w edges := by
  rw [flow, List.map_cons, List.sum_cons, flow]

@[simp]
lemma flow_append : flow w (edges ++ edges') = flow w edges + flow w edges' := by
  rw [flow, List.map_append, List.sum_append, flow, flow]

/-- Edges between the images of points have the weights of these images. -/
lemma flow_map (f : γ → β) (edges : List (γ × γ)) :
    flow w (edges.map (Prod.map f f)) = flow (fun a b => w (f a) (f b)) edges := by
  rw [flow, List.map_map]
  rfl

/-- Turning all edges round changes the sign. -/
lemma flow_swap (hw : Alternating w) (edges : List (β × β)) : flow w (edges.map Prod.swap) = -flow w edges := by
  induction edges with
  | nil => rfl
  | cons e edges ih =>
    rw [List.map_cons, flow_cons, flow_cons, ih, neg_add]
    congr 1
    exact hw e.1 e.2

/-- The weight of edges in groups is the sum over the groups. -/
lemma flow_flatMap {ι : Type} (f : ι → List (β × β)) (is : List ι) :
    flow w (is.flatMap f) = (is.map fun i => flow w (f i)).sum := by
  induction is with
  | nil => rfl
  | cons i is ih => rw [List.flatMap_cons, flow_append, ih, List.map_cons, List.sum_cons]

/-- The order of the edges does not matter. -/
lemma flow_perm (h : edges.Perm edges') : flow w edges = flow w edges' := (h.map _).sum_eq

end Flow

/-! ## Balanced edges -/

variable [DecidableEq β]

/-- Every edge occurs as often as its opposite. -/
def Balanced (edges : List (β × β)) : Prop := ∀ a b, edges.count (a, b) = edges.count (b, a)

/-- What is left of both lists, once opposite edges have been cancelled, is the same. -/
def SameBoundary (edges edges' : List (β × β)) : Prop :=
  ∀ a b, edges.count (a, b) + edges'.count (b, a) = edges.count (b, a) + edges'.count (a, b)

/-- An edge occurs among the opposite ones as often as its own opposite occurs. -/
lemma count_map_swap (edges : List (β × β)) (a b : β) : (edges.map Prod.swap).count (a, b) = edges.count (b, a) :=
  List.count_map_of_injective edges Prod.swap Prod.swap_injective (b, a)

/-- Edges that are their own opposites, in some order, are balanced. -/
lemma balanced_of_perm {edges : List (β × β)} (h : edges.Perm (edges.map Prod.swap)) : Balanced edges := by
  intro a b
  rw [← count_map_swap, h.count_eq]

/-- Whether edges are balanced does not depend on their order. -/
lemma Balanced.perm {edges edges' : List (β × β)} (h : Balanced edges) (hperm : edges.Perm edges') :
    Balanced edges' := by
  intro a b
  rw [← hperm.count_eq, ← hperm.count_eq, h a b]

/-- Edges that are balanced may be left out. -/
lemma Balanced.cancel {edges edges' : List (β × β)} (hedges : Balanced edges) (h : Balanced (edges ++ edges')) :
    Balanced edges' := by
  intro a b
  have hab := h a b
  rw [List.count_append, List.count_append, hedges a b] at hab
  exact Nat.add_left_cancel hab

/-- Opposite edges cancel in pairs until none is left. -/
lemma Balanced.flow_eq_zero {w : β → β → ℤ} (hw : Alternating w) {edges : List (β × β)} (h : Balanced edges) :
    flow w edges = 0 := by
  induction hn : edges.length using Nat.strong_induction_on generalizing edges with
  | _ n ih =>
    subst hn
    cases edges with
    | nil => rfl
    | cons e rest =>
      obtain ⟨a, b⟩ := e
      by_cases hab : a = b
      · subst hab
        have hloop : Balanced [(a, a)] := balanced_of_perm (.refl _)
        have hrest : Balanced rest := hloop.cancel h
        rw [flow_cons, hw.self, zero_add]
        exact ih rest.length (Nat.lt_succ_self _) hrest rfl
      · have hmem : (b, a) ∈ rest := by
          have hopposite : (b, a) ∈ (a, b) :: rest := by
            rw [← List.count_pos_iff, ← h a b, List.count_pos_iff]
            exact List.mem_cons_self
          rcases List.mem_cons.mp hopposite with heq | hmem
          · exact absurd (Prod.mk.inj heq).1.symm hab
          · exact hmem
        have hperm := (List.perm_cons_erase hmem).cons (a, b)
        have hpair : Balanced [(a, b), (b, a)] := balanced_of_perm (.swap _ _ _)
        have hrest : Balanced (rest.erase (b, a)) := hpair.cancel (h.perm hperm)
        have hlength := (List.length_erase_le (a := (b, a)) (l := rest)).trans_lt (Nat.lt_succ_self _)
        rw [flow_perm hperm, flow_cons, flow_cons, ih _ hlength hrest rfl]
        show w a b + (w b a + 0) = 0
        rw [hw a b]
        omega

/-- The weight that counts one edge and its opposite. -/
def countingWeight (a b : β) (x y : β) : ℤ := (if (x, y) = (a, b) then 1 else 0) - if (x, y) = (b, a) then 1 else 0

/-- Counting an edge against its opposite is such a weight. -/
lemma alternating_countingWeight (a b : β) : Alternating (countingWeight a b) := by
  intro x y
  unfold countingWeight
  simp only [Prod.mk.injEq, and_comm]
  omega

/-- It gives by how much more often an edge occurs than its opposite. -/
lemma flow_countingWeight (a b : β) (edges : List (β × β)) :
    flow (countingWeight a b) edges = edges.count (a, b) - edges.count (b, a) := by
  induction edges with
  | nil => rfl
  | cons e edges ih =>
    rw [flow_cons, ih, List.count_cons, List.count_cons, countingWeight]
    simp only [beq_iff_eq]
    split_ifs <;> push_cast <;> omega

/-- Edges are balanced if no alternating weight sees them. -/
theorem balanced_iff {edges : List (β × β)} : Balanced edges ↔ ∀ w, Alternating w → flow w edges = 0 := by
  constructor
  · exact fun h w hw => h.flow_eq_zero hw
  · intro h a b
    have hflow := h _ (alternating_countingWeight a b)
    rw [flow_countingWeight] at hflow
    omega

/-- Two lists have the same boundary if alternating weights do not tell them apart. -/
theorem sameBoundary_iff {edges edges' : List (β × β)} :
    SameBoundary edges edges' ↔ ∀ w, Alternating w → flow w edges = flow w edges' := by
  have hbalanced : SameBoundary edges edges' ↔ Balanced (edges ++ edges'.map Prod.swap) := by
    simp only [SameBoundary, Balanced, List.count_append, count_map_swap]
  rw [hbalanced, balanced_iff]
  refine forall₂_congr fun w hw => ?_
  rw [flow_append, flow_swap hw]
  omega

/-! ## Loops and triangles -/

omit [DecidableEq β] in
/-- The edges along a ring of images are the images of its edges. -/
lemma closedPairs_map (f : γ → β) (ring : List γ) :
    closedPairs (ring.map f) = (closedPairs ring).map (Prod.map f f) := by
  cases ring with
  | nil => rfl
  | cons p rest => rw [List.map_cons, closedPairs, closedPairs, ← List.map_cons, ← List.map_singleton,
      ← List.map_append, List.zip_map]

omit [DecidableEq β] in
/-- Round a loop, what changes from each point to the next adds up to nothing. -/
lemma sum_closedPairs_sub {M : Type} [AddCommGroup M] (v : β → M) (ring : List β) :
    ((closedPairs ring).map fun e => v e.2 - v e.1).sum = 0 := by
  cases ring with
  | nil => rfl
  | cons p rest =>
    have hfst : ((closedPairs (p :: rest)).map fun e => v e.1).sum = ((p :: rest).map v).sum := by
      show (((p :: rest).zip (rest ++ [p])).map (v ∘ Prod.fst)).sum = _
      rw [← List.map_map, List.map_fst_zip (by simp)]
    have hsnd : ((closedPairs (p :: rest)).map fun e => v e.2).sum = ((p :: rest).map v).sum := by
      show (((p :: rest).zip (rest ++ [p])).map (v ∘ Prod.snd)).sum = _
      rw [← List.map_map, List.map_snd_zip (by simp)]
      exact ((List.perm_append_singleton p rest).map v).sum_eq
    rw [sum_map_sub, hfst, hsnd, sub_self]

/-- The edges round a triangle. -/
def cornerEdges {ι : Type} (corner : ι → β) : ι × ι × ι → List (β × β)
  | (a, b, c) => [(corner a, corner b), (corner b, corner c), (corner c, corner a)]

omit [DecidableEq β] in
/-- Swapping two corners of a triangle turns its edges round. -/
lemma flow_cornerEdges_swap {w : β → β → ℤ} (hw : Alternating w) {ι : Type} (corner : ι → β) (a b c : ι) :
    flow w (cornerEdges corner (a, c, b)) = -flow w (cornerEdges corner (a, b, c)) := by
  simp only [cornerEdges, flow_cons, flow_nil]
  rw [hw (corner a) (corner b), hw (corner b) (corner c), hw (corner c) (corner a)]
  omega

/-- The edges of the triangles of a figure, between positions. -/
def Triangulation.edges {α : Type} [Scalar α] (t : Triangulation α) : List (Vec2 α × Vec2 α) :=
  (triples t.indices).flatMap (cornerEdges fun i => (t.points.getD i ⟨0, 0⟩).position)

/-- The edges of all loops of a figure, between positions. -/
def Profile.edges {α : Type} [Scalar α] (p : Profile α) : List (Vec2 α × Vec2 α) :=
  (p.outer :: p.holes).flatMap fun ring => closedPairs (ring.map Vec2.position)

/-! ## Meshes -/

/-- Triples of a first part that is made of triples stay what they are. -/
lemma triples_append {xs ys : List γ} (h : 3 ∣ xs.length) : triples (xs ++ ys) = triples xs ++ triples ys := by
  fun_induction triples xs with
  | case1 a b c rest ih =>
    rw [List.cons_append, List.cons_append, List.cons_append, triples, List.cons_append]
    congr 1
    apply ih
    simp only [List.length_cons] at h
    omega
  | case2 xs hshort =>
    have hnil : xs = [] := by
      rcases xs with _ | ⟨a, _ | ⟨b, _ | ⟨c, rest⟩⟩⟩
      · rfl
      · simp at h
      · simp at h
      · exact absurd rfl (hshort a b c rest)
    rw [hnil]
    rfl

/-- A change of triples is a change of each of them. -/
lemma triples_mapTriples (f : γ × γ × γ → γ × γ × γ) (xs : List γ) :
    triples (mapTriples f xs) = (triples xs).map f := by
  fun_induction mapTriples f xs with
  | case1 a b c rest x y z hxyz ih => rw [triples, triples, List.map_cons, ih, hxyz]
  | case2 xs hshort =>
    rcases xs with _ | ⟨a, _ | ⟨b, _ | ⟨c, rest⟩⟩⟩
    · rfl
    · rfl
    · rfl
    · exact absurd rfl (hshort a b c rest)

/-- There are a third as many triples. -/
lemma length_triples (xs : List γ) : (triples xs).length = xs.length / 3 := by
  fun_induction triples xs with
  | case1 a b c rest ih =>
    simp only [List.length_cons, ih]
    omega
  | case2 xs hshort =>
    rcases xs with _ | ⟨a, _ | ⟨b, _ | ⟨c, rest⟩⟩⟩
    · simp
    · simp
    · simp
    · exact absurd rfl (hshort a b c rest)

/-- The triple at a place is made of the three entries there. -/
lemma getElem?_of_triples {xs : List γ} {i : Nat} {t : γ × γ × γ} (h : (triples xs)[i]? = some t) :
    xs[3 * i]? = some t.1 ∧ xs[3 * i + 1]? = some t.2.1 ∧ xs[3 * i + 2]? = some t.2.2 := by
  fun_induction triples xs generalizing i with
  | case1 a b c rest ih =>
    cases i with
    | zero =>
      cases h
      exact ⟨rfl, rfl, rfl⟩
    | succ i => exact ih h
  | case2 => cases h

namespace Mesh

variable {α : Type} [Scalar α] {m m' : Mesh α}

/-- The directed edges of all triangles, between positions. -/
def edges (m : Mesh α) : List (Vec3 α × Vec3 α) :=
  m.triangles.flatMap (cornerEdges fun i => (m.point i.toNat).position)

omit [Scalar α] in
lemma length_points (m : Mesh α) : m.points.length = m.vertexCount := by
  rw [points, List.length_map, length_triples, Array.length_toList, vertexCount]

/-- The point at a place is the vertex with that number. -/
lemma point_of_points {i : Nat} {p : Vec3 α} (h : m.points[i]? = some p) : m.point i = p := by
  rw [points, List.getElem?_map] at h
  obtain ⟨⟨x, y, z⟩, ht, rfl⟩ := Option.map_eq_some_iff.mp h
  obtain ⟨hx, hy, hz⟩ := getElem?_of_triples ht
  rw [Array.getElem?_toList] at hx hy hz
  rw [point, Array.getD_eq_getD_getElem?, Array.getD_eq_getD_getElem?, Array.getD_eq_getD_getElem?, hx, hy, hz]
  rfl

/-- The points of the first mesh are points of the second one too. -/
lemma point_eq_of_prefix (h : m.points <+: m'.points) {i : Nat} (hi : i < m.vertexCount) :
    m'.point i = m.point i := by
  rw [← length_points] at hi
  have hget : m.points[i]? = some m.points[i] := List.getElem?_eq_getElem hi
  obtain ⟨rest, hrest⟩ := h
  have hget' : m'.points[i]? = some m.points[i] := by
    rw [← hrest, List.getElem?_append_left hi, hget]
  rw [point_of_points hget, point_of_points hget']

/-- Further vertices do not change the edges. -/
lemma edges_of_prefix (hm : m.WellFormed) (hpoints : m.points <+: m'.points) (htriangles : m'.triangles = m.triangles) :
    m'.edges = m.edges := by
  rw [edges, edges, htriangles]
  apply List.flatMap_congr
  rintro ⟨a, b, c⟩ habc
  obtain ⟨ha, hb, hc⟩ := mem_of_mem_triples habc
  have hpoint : ∀ i ∈ m.indices.toList, m'.point i.toNat = m.point i.toNat := fun i hi =>
    point_eq_of_prefix hpoints (hm.corners i (Array.mem_toList_iff.mp hi))
  simp only [cornerEdges, hpoint a ha, hpoint b hb, hpoint c hc]

omit [Scalar α] in
/-- A new vertex is the last point. -/
lemma points_addVertex (hm : 3 ∣ m.positions.size) (position normal : Vec3 α) :
    (m.addVertex position normal).points = m.points ++ [position] := by
  have hlist : (m.addVertex position normal).positions.toList = m.positions.toList ++ position.toList := by
    simp [addVertex]
  rw [points, points, hlist, triples_append (by rwa [Array.length_toList]), List.map_append]
  rfl

omit [Scalar α] in
/-- New vertices are the last points, in order. -/
lemma points_addVertices {ι : Type} (position normal : ι → Vec3 α) (ps : List ι) (hm : 3 ∣ m.positions.size) :
    (ps.foldl (fun m p => m.addVertex (position p) (normal p)) m).points = m.points ++ ps.map position := by
  induction ps generalizing m with
  | nil => rw [List.foldl_nil, List.map_nil, List.append_nil]
  | cons p ps ih =>
    have hp : 3 ∣ (m.addVertex (position p) (normal p)).positions.size := by
      rw [size_positions_addVertex]
      exact Nat.dvd_add hm (Nat.dvd_refl 3)
    rw [List.foldl_cons, ih hp, points_addVertex hm, List.append_assoc, List.map_cons]
    rfl

omit [Scalar α] in
lemma indices_addVertices {ι : Type} (position normal : ι → Vec3 α) (ps : List ι) :
    (ps.foldl (fun m p => m.addVertex (position p) (normal p)) m).indices = m.indices := by
  induction ps generalizing m with
  | nil => rfl
  | cons p ps ih => exact ih

/-- A new triangle adds the edges round it. -/
lemma edges_addTriangle (hm : 3 ∣ m.indices.size) (a b c : UInt32) : (m.addTriangle a b c).edges =
    m.edges ++ cornerEdges (fun i => (m.point i.toNat).position) (a, b, c) := by
  have hlist : (m.addTriangle a b c).indices.toList = m.indices.toList ++ [a, b, c] := by simp [addTriangle]
  rw [edges, triangles, hlist, triples_append (by rwa [Array.length_toList]), List.flatMap_append]
  rfl

omit [Scalar α] in
lemma points_addTriangles {ι : Type} (a b c : ι → UInt32) (ts : List ι) :
    (ts.foldl (fun m t => m.addTriangle (a t) (b t) (c t)) m).points = m.points := by
  induction ts generalizing m with
  | nil => rfl
  | cons t ts ih => exact ih

/-- Triangles added one after the other, each between points that are there already. -/
lemma edges_addTriangles {ι : Type} (a b c : ι → UInt32) (ts : List ι) (hm : 3 ∣ m.indices.size) :
    (ts.foldl (fun m t => m.addTriangle (a t) (b t) (c t)) m).edges = m.edges ++
      ts.flatMap fun t => cornerEdges (fun i => (m.point i.toNat).position) (a t, b t, c t) := by
  induction ts generalizing m with
  | nil => rw [List.foldl_nil, List.flatMap_nil, List.append_nil]
  | cons t ts ih =>
    have ht : 3 ∣ (m.addTriangle (a t) (b t) (c t)).indices.size := by
      rw [size_indices_addTriangle]
      exact Nat.dvd_add hm (Nat.dvd_refl 3)
    rw [List.foldl_cons, ih ht, edges_addTriangle hm, List.append_assoc, List.flatMap_cons]
    rfl

/-- Turning a mesh over turns its edges round. -/
lemma flow_turnOver {w : Vec3 α → Vec3 α → ℤ} (hw : Alternating w) (m : Mesh α) :
    flow w m.turnOver.edges = -flow w m.edges := by
  have htriangles : m.turnOver.triangles = m.triangles.map fun t => (t.1, t.2.2, t.2.1) := triples_mapTriples _ _
  have hpoint : m.turnOver.point = m.point := rfl
  rw [edges, edges, htriangles, hpoint]
  induction m.triangles with
  | nil => rfl
  | cons t ts ih =>
    rw [List.map_cons, List.flatMap_cons, flow_append, ih, List.flatMap_cons, flow_append,
      flow_cornerEdges_swap hw, neg_add]

end Mesh

/-- Where a transformation takes a position. -/
def Mat4.movePosition (t : Mat4 Float) (p : Vec3 Float32) : Vec3 Float32 :=
  (t.transformPoint p.toDouble).toSingle.position

/-- Rounding a position first does not matter for where it is moved. -/
lemma Mat4.movePosition_position (t : Mat4 Float) (p : Vec3 Float32) :
    t.movePosition p.position = t.movePosition p := by
  apply Vec3.position_toSingle
  apply t.position_transformPoint
  exact Vec3.position_toDouble p.position_position

/-- The points of a mesh are transformed one by one. -/
lemma Mesh.points_transform (m : Mesh Float32) (t : Mat4 Float) :
    (m.transform t).points = m.points.map fun p => (t.transformPoint p.toDouble).toSingle := by
  rw [points, points, transform, mapBuffer, List.toList_toArray, triples_mapTriples, List.map_map, List.map_map]
  rfl

/-- A transformation moves the ends of all edges. -/
lemma Mesh.edges_transform {m : Mesh Float32} (hm : m.WellFormed) (t : Mat4 Float) :
    (m.transform t).edges = m.edges.map (Prod.map t.movePosition t.movePosition) := by
  have hpoint : ∀ i ∈ m.indices.toList, ((m.transform t).point i.toNat).position =
      t.movePosition (m.point i.toNat).position := by
    intro i hi
    have hlt := hm.corners i (Array.mem_toList_iff.mp hi)
    rw [← length_points] at hlt
    have hget : m.points[i.toNat]? = some m.points[i.toNat] := List.getElem?_eq_getElem hlt
    have hget' : (m.transform t).points[i.toNat]? = some (t.transformPoint m.points[i.toNat].toDouble).toSingle := by
      rw [points_transform, List.getElem?_map, hget]
      rfl
    rw [point_of_points hget, point_of_points hget', t.movePosition_position]
    rfl
  rw [edges, edges, List.map_flatMap]
  apply List.flatMap_congr
  rintro ⟨a, b, c⟩ habc
  obtain ⟨ha, hb, hc⟩ := mem_of_mem_triples habc
  simp only [cornerEdges, hpoint a ha, hpoint b hb, hpoint c hc, List.map_cons, List.map_nil, Prod.map_apply]

end BuildingModel
