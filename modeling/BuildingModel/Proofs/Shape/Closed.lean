import BuildingModel.Proofs.Shape.Edges
import BuildingModel.Proofs.Shape.Extrusion
import Mathlib

/-!
# Closed solids

An extruded solid has every directed edge as often as its opposite, so that it has no crack and faces one way
everywhere. The argument is a count with alternating weights. The caps contribute the edges of their triangles, below
turned over and above as they are, which amount to the edges of the loops. A wall contributes the edge that it stands
on, the opposite of the edge above, and two upright edges, which cancel with those of its neighbours. Nothing of this
asks how a polygon is cut into triangles, only that the corners of the triangles are points of the profile.
-/

namespace BuildingModel

open Scalar

/-- Every directed edge between two positions occurs as often as the opposite one. -/
def Mesh.Closed (m : Mesh Float32) : Prop := Balanced m.edges

/-- The edges of the triangles of a figure amount to the edges of its loops, once opposite edges are cancelled. -/
def Profile.Covered (clip : Clipper Float) (p : Profile Float) : Prop :=
  ∀ t, p.triangulate clip = .ok t → SameBoundary t.edges p.edges

/-- Points that follow each other on a loop have the same coordinates, or they are apart. -/
def Profile.Spaced (p : Profile Float) : Prop :=
  ∀ ring ∈ p.outer :: p.holes, ∀ e ∈ closedPairs ring, e.1.same e.2 = true ∨ 1e-10 < (e.2 - e.1).norm

variable {w : Vec3 Float32 → Vec3 Float32 → ℤ} {m m' m'' grown : Mesh Float32}
  {ps : List (Vec3 Float32)} {gain gain' : ℤ} {clip : Clipper Float}

/-! ## What is added to a mesh -/

/-- A well-formed mesh grows into another one, and the weight of its edges changes by the given number. -/
def Adds (w : Vec3 Float32 → Vec3 Float32 → ℤ) (m m' : Mesh Float32) (gain : ℤ) : Prop :=
  m.WellFormed → m'.WellFormed ∧ m.vertexCount ≤ m'.vertexCount ∧
    (m'.vertexCount < UInt32.size → flow w m'.edges = flow w m.edges + gain)

namespace Adds

/-- What stays as it is gains nothing. -/
lemma nothing : Adds w m m 0 := fun hm => ⟨hm, Nat.le_refl _, fun _ => (add_zero _).symm⟩

/-- What is gained in two steps is gained altogether. -/
lemma trans (h : Adds w m m' gain) (h' : Adds w m' m'' gain') : Adds w m m'' (gain + gain') := by
  intro hm
  obtain ⟨hm', hle, hflow⟩ := h hm
  obtain ⟨hm'', hle', hflow'⟩ := h' hm'
  refine ⟨hm'', hle.trans hle', fun hfits => ?_⟩
  rw [hflow' hfits, hflow (hle'.trans_lt hfits), add_assoc]

/-- What is gained in a loop is the sum of what its steps gain. -/
lemma foldl {ι : Type} {f : Mesh Float32 → ι → Mesh Float32} {gains : ι → ℤ} (is : List ι)
    (h : ∀ m, ∀ i ∈ is, Adds w m (f m i) (gains i)) : Adds w m (is.foldl f m) (is.map gains).sum := by
  induction is generalizing m with
  | nil => exact nothing
  | cons i is ih =>
    rw [List.foldl_cons, List.map_cons, List.sum_cons]
    exact (h m i List.mem_cons_self).trans (ih fun m' i' hi' => h m' i' (List.mem_cons_of_mem _ hi'))

end Adds

/-- A new vertex is found by its number. -/
lemma Mesh.point_nextIndex_add (hpoints : grown.points = m.points ++ ps) (hfits : grown.vertexCount < UInt32.size)
    {i : UInt32} (hi : i.toNat < ps.length) : grown.point (m.nextIndex + i).toNat = ps.getD i.toNat 0 := by
  have hcount : grown.vertexCount = m.vertexCount + ps.length := by
    rw [← length_points, ← length_points, hpoints, List.length_append]
  have hplace : (m.nextIndex + i).toNat = m.points.length + i.toNat := by
    have hnext : m.nextIndex.toNat = m.vertexCount := Nat.mod_eq_of_lt (by change _ < UInt32.size; omega)
    rw [UInt32.toNat_add, length_points, hnext]
    exact Nat.mod_eq_of_lt (by change _ < UInt32.size; omega)
  apply point_of_points
  rw [hplace, hpoints, List.getElem?_append_right (Nat.le_add_right _ _), Nat.add_sub_cancel_left,
    List.getD_eq_getElem?_getD, List.getElem?_eq_getElem hi, Option.getD_some]

/-- New triangles between new vertices contribute their own edges. -/
lemma adds_addTriangles {ι : Type} {a b c : ι → UInt32} {ts : List ι} (hm : m.WellFormed)
    (hpoints : grown.points = m.points ++ ps) (hindices : grown.indices = m.indices)
    (hts : ∀ t ∈ ts, (a t).toNat < ps.length ∧ (b t).toNat < ps.length ∧ (c t).toNat < ps.length)
    (hgain : m.vertexCount + ps.length < UInt32.size →
      (ts.map fun t => flow w (cornerEdges (fun i => (ps.getD i.toNat 0).position) (a t, b t, c t))).sum = gain)
    (hm' : m' = ts.foldl
      (fun g t => g.addTriangle (m.nextIndex + a t) (m.nextIndex + b t) (m.nextIndex + c t)) grown) :
    m.vertexCount ≤ m'.vertexCount ∧
      (m'.vertexCount < UInt32.size → flow w m'.edges = flow w m.edges + gain) := by
  have hgrown : grown.vertexCount = m.vertexCount + ps.length := by
    rw [← Mesh.length_points, ← Mesh.length_points, hpoints, List.length_append]
  have hcount : m'.vertexCount = m.vertexCount + ps.length := by
    rw [← hgrown, ← Mesh.length_points, ← Mesh.length_points, hm', Mesh.points_addTriangles]
  have hedges : grown.edges = m.edges :=
    Mesh.edges_of_prefix hm ⟨ps, hpoints.symm⟩ (by rw [Mesh.triangles, Mesh.triangles, hindices])
  refine ⟨hcount ▸ Nat.le_add_right _ _, fun hfits => ?_⟩
  rw [hcount] at hfits
  rw [hm', Mesh.edges_addTriangles _ _ _ ts (hindices ▸ hm.indices), flow_append, hedges, flow_flatMap, ← hgain hfits]
  congr 2
  apply List.map_congr_left
  intro t ht
  obtain ⟨ha, hb, hc⟩ := hts t ht
  rw [← hgrown] at hfits
  simp only [cornerEdges, Mesh.point_nextIndex_add hpoints hfits ha, Mesh.point_nextIndex_add hpoints hfits hb,
    Mesh.point_nextIndex_add hpoints hfits hc]

namespace Extrusion

/-- The position above a point of the plane. -/
def raise (height : Float) (p : Vec2 Float) : Vec3 Float32 := (Vec3.toSingle ⟨p.x, p.y, height⟩).position

/-- Points at the same position are raised to the same position. -/
lemma raise_eq {height : Float} {p q : Vec2 Float} (h : p.position = q.position) :
    raise height p = raise height q := by
  apply Vec3.position_toSingle
  rw [Vec3.position_eq_iff]
  rw [Vec2.position, Vec2.position, Vec2.mk.injEq] at h
  exact ⟨h.1, h.2, rfl⟩

/-- The weight of the edges above edges of the plane. -/
def raised (w : Vec3 Float32 → Vec3 Float32 → ℤ) (height : Float) (p q : Vec2 Float) : ℤ :=
  w (raise height p) (raise height q)

/-- A weight of space is one of the plane at a height. -/
lemma alternating_raised (hw : Alternating w) (height : Float) : Alternating (raised w height) :=
  hw.comap (raise height)

/-! ## Caps -/

/-- The triangles of a cap, with the last two corners exchanged if it lies below. -/
lemma addCap_eq (mesh : Mesh Float32) (t : Triangulation Float) {height : Float} {bottom : Bool}
    (hbottom : (height == 0) = bottom) : ∃ normal : Vec3 Float, addCap mesh t height =
      (triples t.indices).foldl (fun m c => m.addTriangle (mesh.nextIndex + c.1.toUInt32)
          (mesh.nextIndex + (if bottom then c.2.2 else c.2.1).toUInt32)
          (mesh.nextIndex + (if bottom then c.2.1 else c.2.2).toUInt32))
        (t.points.foldl (fun m p => m.addVertex (Vec3.toSingle ⟨p.x, p.y, height⟩) normal.toSingle) mesh) := by
  cases bottom with
  | false =>
    refine ⟨Vec3.unitZ, ?_⟩
    rw [addCap, hbottom]
    rfl
  | true =>
    refine ⟨-Vec3.unitZ, ?_⟩
    rw [addCap, hbottom]
    rfl

/-- A triangle of the lower cap is turned round. -/
lemma flow_cornerEdges_turned {β ι : Type} {w : β → β → ℤ} (hw : Alternating w) (corner : ι → β) (bottom : Bool)
    (a b c : ι) : flow w (cornerEdges corner (a, if bottom then c else b, if bottom then b else c)) =
      (if bottom then -1 else 1) * flow w (cornerEdges corner (a, b, c)) := by
  cases bottom with
  | false => exact (one_mul _).symm
  | true => exact (flow_cornerEdges_swap hw corner a b c).trans (neg_one_mul _).symm

/-- A cap contributes the edges of its triangles, turned over if it lies below. -/
lemma adds_addCap (hw : Alternating w) {t : Triangulation Float} (ht : ∀ i ∈ t.indices, i < t.points.length)
    {height : Float} {bottom : Bool} (hbottom : (height == 0) = bottom) :
    Adds w m (addCap m t height) ((if bottom then -1 else 1) * flow (raised w height) t.edges) := by
  intro hm
  obtain ⟨normal, hcap⟩ := addCap_eq m t hbottom
  have hturned : ∀ {i j}, i ∈ t.indices → j ∈ t.indices → (if bottom then i else j) ∈ t.indices := by
    intro i j hi hj
    cases bottom with
    | false => exact hj
    | true => exact hi
  refine ⟨wellFormed_addCap hm height ht, adds_addTriangles hm (Mesh.points_addVertices _ _ _ hm.positions)
    (Mesh.indices_addVertices _ _ _) ?_ ?_ hcap⟩
  · intro c hc
    obtain ⟨hi, hj, hk⟩ := mem_of_mem_triples hc
    have hlt : ∀ i ∈ t.indices, i.toUInt32.toNat <
        (t.points.map fun p => Vec3.toSingle ⟨p.x, p.y, height⟩).length := by
      intro i hi
      rw [List.length_map]
      exact (toNat_toUInt32_le i).trans_lt (ht i hi)
    exact ⟨hlt _ hi, hlt _ (hturned hk hj), hlt _ (hturned hj hk)⟩
  · intro hfits
    rw [List.length_map] at hfits
    have hcorner : ∀ i ∈ t.indices,
        ((t.points.map fun p => Vec3.toSingle ⟨p.x, p.y, height⟩).getD i.toUInt32.toNat 0).position =
          raise height (t.points.getD i ⟨0, 0⟩).position := by
      intro i hi
      have hlt := ht i hi
      have htoNat : i.toUInt32.toNat = i := Nat.mod_eq_of_lt (by change _ < UInt32.size; omega)
      rw [htoNat, List.getD_eq_getElem?_getD, List.getElem?_map, List.getD_eq_getElem?_getD,
        List.getElem?_eq_getElem hlt, raise_eq (Vec2.position_position _)]
      rfl
    rw [Triangulation.edges, flow_flatMap, ← List.sum_map_mul_left]
    congr 1
    apply List.map_congr_left
    rintro ⟨i, j, k⟩ hc
    obtain ⟨hi, hj, hk⟩ := mem_of_mem_triples hc
    have hraised := flow_cornerEdges_turned (alternating_raised hw height)
      (fun i => (t.points.getD i ⟨0, 0⟩).position) bottom i j k
    rw [← hraised]
    simp only [cornerEdges, flow_cons, flow_nil, raised, hcorner i hi, hcorner _ (hturned hk hj),
      hcorner _ (hturned hj hk)]

/-! ## Walls -/

/-- The two triangles of a wall. -/
lemma addWall_eq (mesh : Mesh Float32) {depth : Float} {p q : Vec2 Float} {normal : Vec3 Float}
    (hnormal : Vec3.normalize? ⟨(q - p).y, -(q - p).x, 0⟩ 1e-10 = some normal) : addWall depth mesh (p, q) =
      [(1, 2), (2, 3)].foldl (fun m c => m.addTriangle (mesh.nextIndex + 0) (mesh.nextIndex + c.1)
          (mesh.nextIndex + c.2))
        ([(p, 0), (q, 0), (q, depth), (p, depth)].foldl
          (fun m c => m.addVertex (Vec3.toSingle ⟨c.1.x, c.1.y, c.2⟩) normal.toSingle) mesh) := by
  unfold addWall
  simp only [hnormal, UInt32.add_zero]
  rfl

/-- Two triangles make a wall: below it runs one way, above the other, and its sides are left. -/
lemma flow_cornerEdges_quad {β ι : Type} {w : β → β → ℤ} (hw : Alternating w) (corner : ι → β) (a b c d : ι) :
    flow w (cornerEdges corner (a, b, c)) + flow w (cornerEdges corner (a, c, d)) =
      w (corner a) (corner b) - w (corner d) (corner c) + (w (corner b) (corner c) - w (corner a) (corner d)) := by
  simp only [cornerEdges, flow_cons, flow_nil]
  rw [hw (corner a) (corner c), hw (corner d) (corner c), hw (corner a) (corner d)]
  omega

/-- A wall contributes the edge below it, the opposite of the edge above, and an upright edge at either end. Where
there is no wall, all these edges have no length. -/
lemma adds_addWall (hw : Alternating w) {depth : Float} {p q : Vec2 Float}
    (hpq : p.same q = true ∨ 1e-10 < (q - p).norm) :
    Adds w m (addWall depth m (p, q)) (raised w 0 p q - raised w depth p q +
      (w (raise 0 q) (raise depth q) - w (raise 0 p) (raise depth p))) := by
  cases hnormal : Vec3.normalize? ⟨(q - p).y, -(q - p).x, 0⟩ (1e-10 : Float) with
  | none =>
    have hnone : addWall depth m (p, q) = m := by
      unfold addWall
      simp only [hnormal]
    have hsame : p.position = q.position := by
      rcases hpq with hsame | hapart
      · exact (Vec2.same_iff.mp hsame).1
      · rw [Vec3.normalize?, if_neg (Vec2.not_norm_turned_le hapart)] at hnormal
        cases hnormal
    have hgain : raised w 0 p q - raised w depth p q +
        (w (raise 0 q) (raise depth q) - w (raise 0 p) (raise depth p)) = 0 := by
      simp only [raised, raise_eq hsame, hw.self, sub_self, add_zero]
    rw [hnone, hgain]
    exact Adds.nothing
  | some normal =>
    intro hm
    refine ⟨wellFormed_addWall depth hm (p, q), adds_addTriangles hm (Mesh.points_addVertices _ _ _ hm.positions)
      (Mesh.indices_addVertices _ _ _) ?_ ?_ (addWall_eq m hnormal)⟩
    · intro c hc
      simp only [List.length_map, List.length_cons, List.length_nil]
      rcases List.mem_pair.mp hc with rfl | rfl
      · exact ⟨by decide, by decide, by decide⟩
      · exact ⟨by decide, by decide, by decide⟩
    · intro _
      have hsum : ∀ f : UInt32 × UInt32 → ℤ, ([(1, 2), (2, 3)].map f).sum = f (1, 2) + f (2, 3) := fun f => by simp
      rw [hsum, flow_cornerEdges_quad hw]
      rfl

/-- The positions of a ring are raised as its points are. -/
lemma flow_raised_positions (height : Float) (ring : List (Vec2 Float)) :
    flow (raised w height) (closedPairs (ring.map Vec2.position)) = flow (raised w height) (closedPairs ring) := by
  have hraised : (fun p q => raised w height p.position q.position) = raised w height := by
    funext p q
    rw [raised, raised, raise_eq p.position_position, raise_eq q.position_position]
  rw [closedPairs_map, flow_map, hraised]

/-- The walls over a loop contribute its edges and the opposites of those above; the upright edges cancel. -/
lemma adds_addWalls (hw : Alternating w) {depth : Float} {ring : List (Vec2 Float)}
    (hring : ∀ e ∈ closedPairs ring, e.1.same e.2 = true ∨ 1e-10 < (e.2 - e.1).norm) :
    Adds w m (addWalls m ring depth) (flow (raised w 0) (closedPairs (ring.map Vec2.position)) -
      flow (raised w depth) (closedPairs (ring.map Vec2.position))) := by
  have hstep : ∀ m', ∀ e ∈ closedPairs ring, Adds w m' (addWall depth m' e)
      (raised w 0 e.1 e.2 - raised w depth e.1 e.2 +
        (w (raise 0 e.2) (raise depth e.2) - w (raise 0 e.1) (raise depth e.1))) := by
    rintro m' ⟨p, q⟩ he
    exact adds_addWall hw (hring (p, q) he)
  have hupright := sum_closedPairs_sub (fun p => w (raise 0 p) (raise depth p)) ring
  have hadds := Adds.foldl (m := m) (closedPairs ring) hstep
  rw [List.sum_map_add, sum_map_sub, hupright, add_zero] at hadds
  rw [flow_raised_positions, flow_raised_positions]
  exact hadds

/-! ## Solids -/

/-- All edges of a prism cancel. -/
lemma closed_prism {profile : Profile Float} {t : Triangulation Float} {depth : Float} (hdepth : 0 < depth)
    (hclip : Clipper.InRange clip) (ht : profile.triangulate clip = .ok t) (hspaced : profile.Spaced)
    (hcovered : profile.Covered clip)
    (hfits : (prism profile t depth).vertexCount < UInt32.size) : (prism profile t depth).Closed := by
  rw [Mesh.Closed, balanced_iff]
  intro w hw
  have hindices := triangulate_lt_length hclip ht
  have hbottom := adds_addCap (m := Mesh.empty) hw hindices zero_beq_zero
  have htop := adds_addCap (m := addCap Mesh.empty t 0) hw hindices (beq_zero_of_pos hdepth)
  have hwalls := Adds.foldl (m := addCap (addCap Mesh.empty t 0) t depth) (f := fun m ring => addWalls m ring depth)
    (profile.outer :: profile.holes) fun m ring hring => adds_addWalls (m := m) hw (hspaced ring hring)
  rw [sum_map_sub, ← flow_flatMap, ← flow_flatMap] at hwalls
  obtain ⟨-, -, hflow⟩ := (hbottom.trans htop).trans hwalls Mesh.wellFormed_empty
  have hboundary := sameBoundary_iff.mp (hcovered t ht)
  have hprism := hflow hfits
  rw [hboundary _ (alternating_raised hw 0), hboundary _ (alternating_raised hw depth), if_pos rfl,
    if_neg Bool.false_ne_true] at hprism
  have hempty : flow w (Mesh.empty : Mesh Float32).edges = 0 := rfl
  refine hprism.trans ?_
  rw [hempty, Profile.edges]
  omega

end Extrusion

/-- Moving the vertices keeps a mesh closed. -/
lemma Mesh.Closed.transform (h : m.Closed) (hm : m.WellFormed) (t : Mat4 Float) : (m.transform t).Closed := by
  rw [Mesh.Closed, balanced_iff] at h ⊢
  intro w hw
  rw [Mesh.edges_transform hm, flow_map]
  exact h _ (hw.comap t.movePosition)

/-- Turning all triangles over keeps a mesh closed. -/
lemma Mesh.Closed.turnOver (h : m.Closed) : m.turnOver.Closed := by
  rw [Mesh.Closed, balanced_iff] at h ⊢
  intro w hw
  rw [Mesh.flow_turnOver hw, h w hw, neg_zero]

namespace Extrusion

variable {profile : Profile Float}

/-- Moving the vertices keeps their number. -/
lemma vertexCount_transform (n : Mesh Float32) (t : Mat4 Float) : (n.transform t).vertexCount = n.vertexCount := by
  rw [← Mesh.length_points, Mesh.points_transform, List.length_map, Mesh.length_points]

/-- Inclining a solid keeps the number of its vertices. -/
lemma vertexCount_incline (n : Mesh Float32) (d : Vec3 Float) : (incline n d).vertexCount = n.vertexCount := by
  unfold incline
  split
  · split
    · exact vertexCount_transform n _
    · exact vertexCount_transform n _
  · rfl

/-- Inclining a solid keeps it closed. -/
lemma closed_incline (hm : m.WellFormed) (h : m.Closed) (d : Vec3 Float) : (incline m d).Closed := by
  unfold incline
  split
  · split
    · exact (h.transform hm _).turnOver
    · exact h.transform hm _
  · exact h

/-- Inclining and placing a prism moves its vertices and may turn all its triangles over; both keep it closed. -/
lemma closed_extrude {depth : Float} {direction : Option (Vec3 Float)} {placement : Option (Mat4 Float)}
    (hclip : Clipper.InRange clip) (h : extrude clip profile depth direction placement = .ok m)
    (hfits : m.vertexCount < UInt32.size) (hspaced : profile.Spaced) (hcovered : profile.Covered clip) : m.Closed := by
  obtain ⟨hdepth, t, ht, inclined, hinclined, hm⟩ := extrude_eq_ok h
  have hprism : (prism profile t depth).WellFormed := wellFormed_prism depth (triangulate_lt_length hclip ht)
  have hclosed := closed_prism hdepth hclip ht hspaced hcovered
  have hcount : inclined.vertexCount = m.vertexCount := by
    subst hm
    cases placement with
    | none => rfl
    | some t => exact (vertexCount_transform inclined t).symm
  have hsound : inclined.WellFormed ∧ inclined.Closed := by
    rw [← hcount] at hfits
    subst hinclined
    cases direction with
    | none => exact ⟨hprism, hclosed hfits⟩
    | some d =>
      rw [Option.elim_some, vertexCount_incline] at hfits
      exact ⟨wellFormed_incline hprism d, closed_incline hprism (hclosed hfits) d⟩
  subst hm
  cases placement with
  | none => exact hsound.2
  | some t => exact hsound.2.transform hsound.1 t

end Extrusion

/-! ## Fans -/

/-- The triangles of a fan have its first point in common. -/
lemma triples_fan (n : Nat) : triples (Polygon.fan n) = (List.range (n - 2)).map fun i => (0, i + 1, i + 2) := by
  rw [Polygon.fan]
  induction List.range (n - 2) with
  | nil => rfl
  | cons i is ih =>
    rw [List.flatMap_cons, List.cons_append, List.cons_append, List.cons_append, List.nil_append, triples, ih,
      List.map_cons]

/-- The pairs of neighbours of the numbers up to `n`, which are closed by the pair of the last and the first. -/
lemma closedPairs_range (n : Nat) :
    closedPairs (List.range (n + 1)) = ((List.range n).map fun i => (i, i + 1)) ++ [(n, 0)] := by
  have hzip : (List.range n).zip ((List.range n).map Nat.succ) = (List.range n).map fun i => (i, i + 1) := by
    simpa using List.zip_map' (f := id) (g := Nat.succ) (l := List.range n)
  rw [List.range_succ_eq_map, closedPairs, ← List.range_succ_eq_map, List.range_succ,
    List.zip_append (by simp), hzip]
  rfl

/-- The triangles of a fan amount to the loop round it. -/
lemma flow_fan {w : ℕ → ℕ → ℤ} (hw : Alternating w) (k : Nat) :
    flow w ((triples (Polygon.fan (k + 2))).flatMap (cornerEdges id)) = flow w (closedPairs (List.range (k + 2))) := by
  rw [triples_fan, Nat.add_sub_cancel, closedPairs_range]
  induction k with
  | zero =>
    have h := hw 0 1
    show 0 = w 0 1 + (w 1 0 + 0)
    omega
  | succ k ih =>
    have h := hw 0 (k + 1)
    rw [List.range_succ, List.map_append, List.flatMap_append, flow_append, ih, List.range_succ (n := k + 1),
      List.map_append, flow_append, flow_append, flow_append]
    simp only [List.map_cons, List.map_nil, List.flatMap_cons, List.flatMap_nil, List.append_nil, cornerEdges, id,
      flow_cons, flow_nil, Nat.add_assoc, Nat.reduceAdd]
    omega

/-- A figure without holes that is cut into a fan is covered by its triangles. -/
lemma Profile.covered_of_takesFan {profile : Profile Float} (hholes : profile.holes = [])
    (hfan : Polygon.takesFan profile.outer = true) : profile.Covered clip := by
  intro t ht
  obtain ⟨indices, hindices, ht⟩ := Exchange.bind_eq_ok_iff.mp ht
  cases ht
  have htriangulate : Polygon.triangulate clip profile.outer = .ok indices := by
    rw [hholes] at hindices
    exact hindices
  rw [Polygon.triangulate, if_pos hfan] at htriangulate
  split at htriangulate
  · cases htriangulate
  · rename_i hlength
    cases htriangulate
    obtain ⟨k, hk⟩ : ∃ k, profile.outer.length = k + 2 := ⟨profile.outer.length - 2, by omega⟩
    have hpoints : profile.points = profile.outer := by rw [points, hholes, List.flatten_nil, List.append_nil]
    rw [sameBoundary_iff]
    intro w hw
    have hcorners : profile.outer.map Vec2.position =
        (List.range (k + 2)).map fun i => (profile.outer.getD i ⟨0, 0⟩).position := by
      apply List.ext_getElem
      · simp [hk]
      · intro i hi hi'
        rw [List.length_map] at hi
        rw [List.getElem_map, List.getElem_map, List.getElem_range, List.getD_eq_getElem?_getD,
          List.getElem?_eq_getElem hi, Option.getD_some]
    have hfan := flow_fan (hw.comap fun i => (profile.outer.getD i ⟨0, 0⟩).position) k
    rw [Triangulation.edges, Profile.edges, hpoints, hholes, List.flatMap_singleton, hcorners, closedPairs_map,
      flow_map, ← hfan, hk, ← flow_map fun i => (profile.outer.getD i ⟨0, 0⟩).position, List.map_flatMap]
    rfl

/-- Extruded solids are closed if their profile is covered by its triangles and has no steps that are too short, and
a profile that is cut into a fan is covered. This holds for every clipper whose triangles refer to points of the
polygon, and ear clipping is one. A solid is taken to have fewer than `2 ^ 32` vertices, which is a condition of its
own: vertices are numbered by words of 32 bits, so that in a larger solid two vertices share a number. -/
theorem Extrusion.extrude_closed (profile : Profile Float) :
    Clipper.InRange (earClip : Clipper Float) ∧ ∀ clip : Clipper Float, Clipper.InRange clip →
      (∀ depth direction placement mesh, extrude clip profile depth direction placement = .ok mesh →
        mesh.vertexCount < UInt32.size → profile.Spaced → profile.Covered clip → mesh.Closed) ∧
      (profile.holes = [] → Polygon.takesFan profile.outer = true → profile.Covered clip) :=
  ⟨earClip_inRange, fun _ hclip => ⟨fun _ _ _ _ h hfits hspaced hcovered =>
    closed_extrude hclip h hfits hspaced hcovered, Profile.covered_of_takesFan⟩⟩

/-- A square with a corner given twice, once with a negative zero. -/
def repeatedCorner : Profile Float := ⟨[⟨0, 0⟩, ⟨1, 0⟩, ⟨1, -0⟩, ⟨1, 1⟩, ⟨0, 1⟩], []⟩

/-- The prism is closed, although a corner is repeated. -/
theorem extrude_closed_repeatedCorner : ∃ mesh,
    Extrusion.extrude earClip repeatedCorner 2 (some ⟨0, 0, -1⟩) none = .ok mesh ∧ mesh.vertexCount < UInt32.size ∧
    repeatedCorner.Spaced ∧ Polygon.takesFan repeatedCorner.outer = true ∧ mesh.Closed := by
  have hspaced : repeatedCorner.Spaced := by
    unfold Profile.Spaced
    decide +kernel
  have hfan : Polygon.takesFan repeatedCorner.outer = true := by decide +kernel
  have hcount : (Extrusion.extrude earClip repeatedCorner 2 (some ⟨0, 0, -1⟩) none).toOption.map Mesh.vertexCount =
      some 26 := by
    decide +kernel
  cases hmesh : Extrusion.extrude earClip repeatedCorner 2 (some ⟨0, 0, -1⟩) none with
  | error e =>
    rw [hmesh] at hcount
    cases hcount
  | ok mesh =>
    rw [hmesh] at hcount
    have hfits : mesh.vertexCount < UInt32.size := by
      rw [Option.some.inj hcount]
      decide
    obtain ⟨hclip, hsolids⟩ := Extrusion.extrude_closed repeatedCorner
    obtain ⟨hclosed, hcovered⟩ := hsolids earClip hclip
    have hclosed := hclosed 2 (some ⟨0, 0, -1⟩) none mesh hmesh hfits hspaced (hcovered rfl hfan)
    exact ⟨mesh, rfl, hfits, hspaced, hfan, hclosed⟩

end BuildingModel
