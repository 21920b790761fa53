import BuildingModel.Proofs.Shape.Content
import BuildingModel.Proofs.Shape.Edges
import BuildingModel.View.Detail
import Mathlib

/-!
# Vertices on a grid, as a table and as a quotient

The mesh on a grid is made in two loops. The first one goes over the vertices with a table of the cells met so far,
which are numbered in the order of first sight; the second one goes over the triangles and makes the vertex of a cell
when a triangle first needs it, and remembers its index. `CellTable.Holds` says what is in the table after some
vertices, and `CoarseMesh.Draws` what is in the mesh after some triangles; each is kept by a step of its loop. So the
two loops give the quotient of the mesh by the cells (`Geometry.clusterMesh_eq_quotientMesh`): one vertex for each cell
that a remaining triangle has a corner in, in the order of first use, and every corner replaced by the vertex of its
cell.
-/

namespace BuildingModel

/-! ## Order of first sight -/

section Noted

variable {κ : Type} [BEq κ] [LawfulBEq κ] {keys : List κ} {key k : κ}

/-- Keys in the order of first sight, after one more key has been seen. -/
def noted (keys : List κ) (key : κ) : List κ := if key ∈ keys then keys else keys ++ [key]

/-- A key that has been seen changes nothing. -/
lemma noted_of_mem (h : key ∈ keys) : noted keys key = keys := if_pos h

/-- A new key comes last. -/
lemma noted_of_not_mem (h : key ∉ keys) : noted keys key = keys ++ [key] := if_neg h

/-- After a key has been seen there are this key and those from before. -/
lemma mem_noted_iff : k ∈ noted keys key ↔ k ∈ keys ∨ k = key := by
  by_cases h : key ∈ keys
  · rw [noted_of_mem h]
    refine ⟨.inl, ?_⟩
    rintro (hk | rfl)
    · exact hk
    · exact h
  · rw [noted_of_not_mem h, List.mem_append, List.mem_singleton]

/-- A key that has been seen is there. -/
lemma mem_noted_self (keys : List κ) (key : κ) : key ∈ noted keys key := mem_noted_iff.mpr (.inr rfl)

/-- No key is noted twice. -/
lemma nodup_noted (h : keys.Nodup) (key : κ) : (noted keys key).Nodup := by
  by_cases hmem : key ∈ keys
  · rwa [noted_of_mem hmem]
  · rw [noted_of_not_mem hmem, ← List.concat_eq_append]
    exact h.concat hmem

/-- A key keeps its place. -/
lemma idxOf_noted (hk : k ∈ keys) (key : κ) : (noted keys key).idxOf k = keys.idxOf k := by
  by_cases hmem : key ∈ keys
  · rw [noted_of_mem hmem]
  · rw [noted_of_not_mem hmem, List.idxOf_append_of_mem hk]

/-- A new key gets the next place. -/
lemma idxOf_noted_of_not_mem (h : key ∉ keys) : (noted keys key).idxOf key = keys.length := by
  rw [noted_of_not_mem h, List.idxOf_append_of_notMem h, List.idxOf_cons_self, Nat.add_zero]

/-- What stands at a place after a key has been seen. -/
lemma getElem?_noted_of_not_mem (h : key ∉ keys) (i : Nat) :
    (noted keys key)[i]? = if i = keys.length then some key else keys[i]? := by
  rw [noted_of_not_mem h, List.getElem?_append]
  split
  · rw [if_neg (by omega)]
  · rename_i hi
    rw [List.getElem?_singleton, List.getElem?_eq_none (by omega)]
    congr 1
    exact propext ⟨fun _ => by omega, fun _ => by omega⟩

/-- The keys of a list without repetition are those that have been seen, in the order of first sight. -/
lemma eraseDups_concat (xs : List κ) (x : κ) : (xs ++ [x]).eraseDups = noted xs.eraseDups x := by
  rw [List.eraseDups_append]
  by_cases h : x ∈ xs
  · have hnone : [x].removeAll xs = [] := by simp [List.removeAll, h]
    rw [hnone, List.eraseDups_nil, List.append_nil, noted_of_mem (List.mem_eraseDups.mpr h)]
  · have hone : [x].removeAll xs = [x] := by simp [List.removeAll, h]
    rw [hone, noted_of_not_mem (mt List.mem_eraseDups.mp h)]
    rfl

/-- A list without repetition has every member once. -/
lemma nodup_eraseDups (xs : List κ) : xs.eraseDups.Nodup := by
  induction xs using List.reverseRecOn with
  | nil => exact List.nodup_nil
  | append_singleton xs x ih =>
    rw [eraseDups_concat]
    exact nodup_noted ih x

/-- In a list without repetition a member stands at its own place only. -/
lemma getElem?_eq_some_iff_idxOf (h : keys.Nodup) (hkey : key ∈ keys) {i : Nat} :
    keys[i]? = some key ↔ i = keys.idxOf key := by
  constructor
  · intro hi
    obtain ⟨hlt, rfl⟩ := List.getElem?_eq_some_iff.mp hi
    exact (h.idxOf_getElem i hlt).symm
  · rintro rfl
    exact List.getElem?_idxOf hkey

end Noted

/-! ## The table of cells -/

/-- A vertex and the cell in which it lies. -/
structure GridVertex (α : Type) where
  key : GridKey
  position : Vec3 α
  normal : Vec3 α

section Cells

variable {α : Type} [Stored α]

/-- The vertices that lie in a cell. -/
def inCell (vs : List (GridVertex α)) (key : GridKey) : List (GridVertex α) := vs.filter (·.key = key)

/-- What is known of some vertices. -/
def Cluster.ofVertices (vs : List (GridVertex α)) : Cluster α where
  sum := Stored.sumOf (vs.map (·.position))
  normal := Stored.sumOf (vs.map (·.normal))
  count := vs.length.toUInt32
  index := none

/-- What is known of one more vertex. -/
lemma Cluster.ofVertices_concat (vs : List (GridVertex α)) (v : GridVertex α) :
    Cluster.ofVertices (vs ++ [v]) = (Cluster.ofVertices vs).add v.position v.normal := by
  rw [ofVertices, ofVertices, add, List.map_append, List.map_append, List.length_append, Stored.sumOf, Stored.sumOf,
    List.foldl_append, List.foldl_append]
  congr 1
  exact UInt32.ofNat_add _ _

omit [Stored α] in
/-- A vertex belongs to its own cell only. -/
lemma inCell_concat (vs : List (GridVertex α)) (v : GridVertex α) (key : GridKey) :
    inCell (vs ++ [v]) key = if v.key = key then inCell vs key ++ [v] else inCell vs key := by
  rw [inCell, List.filter_append, List.filter_singleton]
  by_cases h : v.key = key
  · simp [h, inCell]
  · simp [h, inCell]

namespace CellTable

variable {t : CellTable α} {order : List GridKey} {vs : List (GridVertex α)}

/-- The table holds the given vertices, with their cells in the given order. -/
structure Holds (t : CellTable α) (order : List GridKey) (vs : List (GridVertex α)) : Prop where
  nodup : order.Nodup
  covers : ∀ v ∈ vs, v.key ∈ order
  cells : ∀ key, t.cells[key]? = if key ∈ order then some (order.idxOf key) else none
  size : t.clusters.size = order.length
  clusters : ∀ i : Nat, t.clusters[i]? = order[i]?.map fun key => Cluster.ofVertices (inCell vs key)
  numbers : t.numbers.toList = vs.map fun v => order.idxOf v.key

/-- At first there are no cells. -/
lemma holds_empty : (empty : CellTable α).Holds [] [] where
  nodup := List.nodup_nil
  covers v hv := absurd hv List.not_mem_nil
  cells key := by
    rw [if_neg List.not_mem_nil]
    exact Std.HashMap.getElem?_empty
  size := rfl
  clusters _ := rfl
  numbers := rfl

/-- Looking up a cell gives its place in the order of first sight. -/
lemma Holds.enter (h : t.Holds order vs) (key : GridKey) :
    (t.enter key).1 = (noted order key).idxOf key ∧ (t.enter key).2.Holds (noted order key) vs := by
  rw [CellTable.enter, h.cells]
  by_cases hkey : key ∈ order
  · rw [if_pos hkey, noted_of_mem hkey]
    exact ⟨rfl, h⟩
  · rw [if_neg hkey]
    refine ⟨h.size.trans (idxOf_noted_of_not_mem hkey).symm, nodup_noted h.nodup key, ?_, ?_, ?_, ?_, ?_⟩
    · intro v hv
      exact mem_noted_iff.mpr (.inl (h.covers v hv))
    · intro k
      rw [Std.HashMap.getElem?_insert]
      by_cases hk : key = k
      · subst hk
        rw [if_pos (beq_self_eq_true key), if_pos (mem_noted_self order key), idxOf_noted_of_not_mem hkey, h.size]
      · rw [if_neg (by simpa using hk), h.cells]
        by_cases hmem : k ∈ order
        · rw [if_pos hmem, if_pos (mem_noted_iff.mpr (.inl hmem)), idxOf_noted hmem]
        · rw [if_neg hmem, if_neg]
          rw [mem_noted_iff]
          rintro (hk' | rfl)
          · exact hmem hk'
          · exact hk rfl
    · rw [Array.size_push, h.size, noted_of_not_mem hkey, List.length_append, List.length_singleton]
    · intro i
      rw [Array.getElem?_push, h.size, getElem?_noted_of_not_mem hkey]
      split
      · have hnone : inCell vs key = [] := by
          apply List.filter_eq_nil_iff.mpr
          intro v hv hv'
          exact hkey (of_decide_eq_true hv' ▸ h.covers v hv)
        rw [Option.map_some, hnone]
        rfl
      · exact h.clusters i
    · rw [h.numbers]
      apply List.map_congr_left
      intro v hv
      rw [idxOf_noted (h.covers v hv)]

/-- Taking in a vertex changes its own cell only. -/
lemma Holds.addVertex (h : t.Holds order vs) (v : GridVertex α) :
    (t.addVertex v.key v.position v.normal).Holds (noted order v.key) (vs ++ [v]) := by
  obtain ⟨hnumber, h⟩ := h.enter v.key
  have hkey := mem_noted_self order v.key
  refine ⟨h.nodup, ?_, h.cells, ?_, ?_, ?_⟩
  · intro u hu
    rcases List.mem_append.mp hu with hu | hu
    · exact h.covers u hu
    · rw [List.mem_singleton.mp hu]
      exact hkey
  · rw [CellTable.addVertex, Array.size_modify, h.size]
  · intro i
    rw [CellTable.addVertex, Array.getElem?_modify, h.clusters, hnumber]
    cases hi : (noted order v.key)[i]? with
    | none => simp
    | some key =>
      simp only [Option.map_some, inCell_concat]
      by_cases hv : v.key = key
      · subst hv
        rw [if_pos ((getElem?_eq_some_iff_idxOf h.nodup hkey).mp hi).symm, if_pos rfl, Cluster.ofVertices_concat]
      · have hne : (noted order v.key).idxOf v.key ≠ i := by
          intro heq
          rw [← heq, List.getElem?_idxOf hkey] at hi
          exact hv (Option.some.inj hi)
        rw [if_neg hne, if_neg hv]
  · rw [CellTable.addVertex, Array.toList_push, h.numbers, hnumber, List.map_append, List.map_singleton]

/-- After some vertices the table holds them, with their cells in the order of first sight. -/
lemma holds_foldl (vs : List (GridVertex α)) :
    (vs.foldl (fun t v => t.addVertex v.key v.position v.normal) (empty : CellTable α)).Holds
      (vs.map (·.key)).eraseDups vs := by
  induction vs using List.reverseRecOn with
  | nil => exact holds_empty
  | append_singleton vs v ih =>
    rw [List.foldl_append, List.map_append, List.map_singleton, eraseDups_concat]
    exact ih.addVertex v

end CellTable

/-! ## Triangles between cells -/

/-- The one vertex for all vertices of a cell: their middle and the direction of their normals. -/
def cellVertex (vs : List (GridVertex α)) (key : GridKey) : Vec3 α × Vec3 α :=
  let members := inCell vs key
  (Stored.mean (Stored.sumOf (members.map (·.position))) members.length.toUInt32,
    Stored.direction (Stored.sumOf (members.map (·.normal))))

/-- The vertices of some cells, before there are triangles. -/
def cellVertices (vs : List (GridVertex α)) (keys : List GridKey) : Mesh α :=
  keys.foldl (fun m key => m.addVertex (cellVertex vs key).1 (cellVertex vs key).2) Mesh.empty

/-- One more cell has one more vertex. -/
lemma cellVertices_concat (vs : List (GridVertex α)) (keys : List GridKey) (key : GridKey) :
    cellVertices vs (keys ++ [key]) =
      (cellVertices vs keys).addVertex (cellVertex vs key).1 (cellVertex vs key).2 := by
  rw [cellVertices, List.foldl_append]
  rfl

/-- There are as many vertices as cells. -/
lemma wellFormedOn_cellVertices (vs : List (GridVertex α)) (keys : List GridKey) :
    (cellVertices vs keys).WellFormedOn keys.length := by
  have hstart : (Mesh.empty : Mesh α).WellFormedOn 0 := ⟨Mesh.wellFormed_empty, Nat.zero_div 3⟩
  have h := hstart.addVertices (fun key => (cellVertex vs key).1) (fun key => (cellVertex vs key).2) keys
  rwa [Nat.zero_add] at h

namespace CoarseMesh

variable {m : CoarseMesh α} {order used corners : List GridKey} {vs : List (GridVertex α)} {key : GridKey}

/-- The mesh has a vertex for each used cell, in the given order, and triangles with the given corners. -/
structure Draws (m : CoarseMesh α) (vs : List (GridVertex α)) (order used corners : List GridKey) : Prop where
  nodup : order.Nodup
  within : ∀ key ∈ corners, key ∈ used
  clusters : ∀ i : Nat, m.clusters[i]? = order[i]?.map fun key =>
    { Cluster.ofVertices (inCell vs key) with
      index := if key ∈ used then some (used.idxOf key).toUInt32 else none }
  positions : m.mesh.positions = (cellVertices vs used).positions
  normals : m.mesh.normals = (cellVertices vs used).normals
  indices : m.mesh.indices.toList = corners.map fun key => (used.idxOf key).toUInt32

/-- At first no cell is used. -/
lemma draws_start {t : CellTable α} (h : t.Holds order vs) : Draws ⟨t.clusters, Mesh.empty⟩ vs order [] [] where
  nodup := h.nodup
  within key hkey := absurd hkey List.not_mem_nil
  clusters i := by
    rw [h.clusters]
    simp only [List.not_mem_nil, if_false]
    rfl
  positions := rfl
  normals := rfl
  indices := rfl

/-- The next vertex gets the number of the cells that are used so far. -/
lemma Draws.nextIndex (h : m.Draws vs order used corners) : m.mesh.nextIndex = used.length.toUInt32 := by
  have hcount := (wellFormedOn_cellVertices vs used).2
  rw [Mesh.nextIndex, Mesh.vertexCount, h.positions]
  exact congrArg Nat.toUInt32 hcount

/-- Asking for the vertex of a cell gives its place in the order of first use. -/
lemma Draws.vertex (h : m.Draws vs order used corners) (hkey : key ∈ order) :
    ∃ m', m.vertex (order.idxOf key) = (((noted used key).idxOf key).toUInt32, m') ∧
      m'.Draws vs order (noted used key) corners := by
  have hcluster := h.clusters (order.idxOf key)
  rw [List.getElem?_idxOf hkey, Option.map_some] at hcluster
  rw [CoarseMesh.vertex, hcluster]
  by_cases hused : key ∈ used
  · simp only [if_pos hused, noted_of_mem hused]
    exact ⟨m, rfl, h⟩
  · simp only [if_neg hused, h.nextIndex, idxOf_noted_of_not_mem hused]
    have hsame : ∀ k ∈ corners, (noted used key).idxOf k = used.idxOf k := fun k hk => idxOf_noted (h.within k hk) key
    refine ⟨_, rfl, h.nodup, fun k hk => mem_noted_iff.mpr (.inl (h.within k hk)), ?_, ?_, ?_, ?_⟩
    · intro i
      by_cases hi : order.idxOf key = i
      · subst hi
        obtain ⟨hlt, -⟩ := Array.getElem?_eq_some_iff.mp hcluster
        rw [Array.getElem?_setIfInBounds_self_of_lt hlt, List.getElem?_idxOf hkey, Option.map_some,
          if_pos (mem_noted_self used key), idxOf_noted_of_not_mem hused]
      · rw [Array.getElem?_setIfInBounds_ne hi, h.clusters]
        apply Option.map_congr
        intro k hk
        have hne : k ≠ key := by
          rintro rfl
          exact hi ((getElem?_eq_some_iff_idxOf h.nodup hkey).mp hk).symm
        by_cases hk : k ∈ used
        · rw [if_pos hk, if_pos (mem_noted_iff.mpr (.inl hk)), idxOf_noted hk]
        · rw [if_neg hk, if_neg fun hmem => (mem_noted_iff.mp hmem).elim hk hne]
    · rw [noted_of_not_mem hused, cellVertices_concat]
      simp only [Mesh.addVertex, h.positions]
      rfl
    · rw [noted_of_not_mem hused, cellVertices_concat]
      simp only [Mesh.addVertex, h.normals]
      rfl
    · refine h.indices.trans ?_
      apply List.map_congr_left
      intro k hk
      rw [hsame k hk]

/-- Places in the order of first sight differ as the cells do. -/
lemma survives_idxOf {a b : GridKey} (ha : a ∈ order) (hb : b ∈ order) (c : GridKey) (primitive : Primitive) :
    survives primitive (order.idxOf a) (order.idxOf b) (order.idxOf c) = survives primitive a b c := by
  have hne : ∀ x ∈ order, ∀ y, decide (order.idxOf x ≠ order.idxOf y) = decide (x ≠ y) := fun x hx y =>
    decide_eq_decide.mpr (List.idxOf_inj hx).not
  cases primitive with
  | lines => exact hne a ha b
  | triangles => rw [survives, survives, hne a ha b, hne b hb c, hne a ha c]

/-- A triangle that is left is added after its vertices. -/
lemma addTriangle_of_survives {primitive : Primitive} {i j k : Nat} (hkept : survives primitive i j k = true)
    {m₀ m₁ m₂ m₃ : CoarseMesh α} {x y z : UInt32} (h₁ : m₀.vertex i = (x, m₁)) (h₂ : m₁.vertex j = (y, m₂))
    (h₃ : m₂.vertex k = (z, m₃)) :
    m₀.addTriangle primitive i j k = { m₃ with mesh := m₃.mesh.addTriangle x y z } := by
  rw [CoarseMesh.addTriangle, if_pos hkept, h₁]
  simp only [h₂, h₃]

/-- The vertices of a triangle that is left are those of its three cells. -/
lemma Draws.addTriangle (h : m.Draws vs order corners.eraseDups corners) {primitive : Primitive} {a b c : GridKey}
    (ha : a ∈ order) (hb : b ∈ order) (hc : c ∈ order) (hkept : survives primitive a b c = true) :
    (m.addTriangle primitive (order.idxOf a) (order.idxOf b) (order.idxOf c)).Draws vs order
      (corners ++ [a, b, c]).eraseDups (corners ++ [a, b, c]) := by
  rw [← survives_idxOf ha hb c] at hkept
  obtain ⟨m₁, hfirst, h₁⟩ := h.vertex ha
  obtain ⟨m₂, hsecond, h₂⟩ := h₁.vertex hb
  obtain ⟨m₃, hthird, h₃⟩ := h₂.vertex hc
  have hused : (corners ++ [a, b, c]).eraseDups = noted (noted (noted corners.eraseDups a) b) c := by
    rw [← eraseDups_concat, ← eraseDups_concat, ← eraseDups_concat, List.append_assoc, List.append_assoc]
    rfl
  -- a vertex that was given out keeps its place while the other corners get theirs
  have hb' := mem_noted_self (noted corners.eraseDups a) b
  have ha' := mem_noted_self corners.eraseDups a
  rw [← idxOf_noted hb' c] at hsecond
  rw [← idxOf_noted ha' b, ← idxOf_noted (mem_noted_iff.mpr (.inl ha')) c] at hfirst
  rw [addTriangle_of_survives hkept hfirst hsecond hthird, hused]
  refine ⟨h.nodup, ?_, h₃.clusters, h₃.positions, h₃.normals, ?_⟩
  · intro key hkey
    rw [← hused]
    exact List.mem_eraseDups.mpr hkey
  · simp only [Mesh.addTriangle, Array.toList_appendList, h₃.indices, List.map_append, List.map_cons, List.map_nil]

/-- A triangle that is not left changes nothing. -/
lemma addTriangle_of_not_survives {a b : GridKey} (ha : a ∈ order) (hb : b ∈ order) (c : GridKey)
    {primitive : Primitive} (hgone : survives primitive a b c = false) (m : CoarseMesh α) :
    m.addTriangle primitive (order.idxOf a) (order.idxOf b) (order.idxOf c) = m := by
  rw [CoarseMesh.addTriangle, survives_idxOf ha hb c, hgone, if_neg Bool.false_ne_true]

/-- The corners of the triangles that are left. -/
def keptCorners (primitive : Primitive) (ts : List (GridKey × GridKey × GridKey)) : List GridKey :=
  (ts.filter fun t => survives primitive t.1 t.2.1 t.2.2).flatMap fun t => [t.1, t.2.1, t.2.2]

/-- After some triangles the mesh has those that are left. -/
lemma Draws.foldl (h : m.Draws vs order corners.eraseDups corners) (primitive : Primitive)
    {ts : List (GridKey × GridKey × GridKey)} (hts : ∀ t ∈ ts, t.1 ∈ order ∧ t.2.1 ∈ order ∧ t.2.2 ∈ order) :
    (ts.foldl (fun m t => m.addTriangle primitive (order.idxOf t.1) (order.idxOf t.2.1) (order.idxOf t.2.2)) m).Draws
      vs order (corners ++ keptCorners primitive ts).eraseDups (corners ++ keptCorners primitive ts) := by
  induction ts generalizing m corners with
  | nil =>
    rw [keptCorners, List.filter_nil, List.flatMap_nil, List.append_nil]
    exact h
  | cons t ts ih =>
    obtain ⟨⟨ha, hb, hc⟩, hts⟩ := List.forall_mem_cons.mp hts
    rw [List.foldl_cons, keptCorners, List.filter_cons]
    by_cases hkept : survives primitive t.1 t.2.1 t.2.2 = true
    · rw [if_pos hkept, List.flatMap_cons, ← List.append_assoc]
      exact ih (h.addTriangle ha hb hc hkept) hts
    · rw [if_neg hkept, addTriangle_of_not_survives ha hb t.2.2 (Bool.eq_false_iff.mpr hkept)]
      exact ih h hts

end CoarseMesh

end Cells

/-- Triangles that are added change the indices only. -/
lemma Mesh.addTriangles_eq {α ι : Type} (a b c : ι → UInt32) (ts : List ι) (m : Mesh α) :
    ts.foldl (fun m t => m.addTriangle (a t) (b t) (c t)) m =
      { m with indices := m.indices ++ ts.flatMap fun t => [a t, b t, c t] } := by
  induction ts generalizing m with
  | nil => simp
  | cons t ts ih =>
    rw [List.foldl_cons, ih, List.flatMap_cons]
    simp [Mesh.addTriangle]

/-! ## Geometries -/

namespace Geometry

variable {α : Type} [Stored α] {g : Geometry α} {cell : α}

/-- The cell in which a vertex lies. -/
def vertexKey (g : Geometry α) (cell : α) (i : UInt32) : GridKey := g.gridKey cell (g.mesh.point i.toNat)

/-- The vertices of a geometry with their cells. -/
def gridVertices (g : Geometry α) (cell : α) : List (GridVertex α) :=
  (List.range g.vertexCount).map fun i => ⟨g.gridKey cell (g.mesh.point i), g.mesh.point i, g.mesh.normal i⟩

/-- The corners of a triangle lie in different cells. Of a segment only the first two corners count. -/
def Separates (g : Geometry α) (cell : α) (t : UInt32 × UInt32 × UInt32) : Prop :=
  g.vertexKey cell t.1 ≠ g.vertexKey cell t.2.1 ∧
    (g.primitive = .triangles →
      g.vertexKey cell t.2.1 ≠ g.vertexKey cell t.2.2 ∧ g.vertexKey cell t.1 ≠ g.vertexKey cell t.2.2)

instance (g : Geometry α) (cell : α) (t : UInt32 × UInt32 × UInt32) : Decidable (g.Separates cell t) :=
  inferInstanceAs (Decidable (_ ∧ _))

/-- The triangles whose corners lie in different cells. -/
def separated (g : Geometry α) (cell : α) : List (UInt32 × UInt32 × UInt32) :=
  g.mesh.triangles.filter (g.Separates cell ·)

/-- The vertices of the triangles whose corners lie in different cells. -/
def separatedVertices (g : Geometry α) (cell : α) : List UInt32 :=
  (g.separated cell).flatMap fun t => [t.1, t.2.1, t.2.2]

/-- The cells that get a vertex, in the order in which triangles use them. -/
def usedKeys (g : Geometry α) (cell : α) : List GridKey :=
  ((g.separatedVertices cell).map (g.vertexKey cell)).eraseDups

/-- The vertex of the cell of a vertex. -/
def cellImage (g : Geometry α) (cell : α) (i : UInt32) : UInt32 :=
  ((g.usedKeys cell).idxOf (g.vertexKey cell i)).toUInt32

/-- The quotient of the mesh by the cells of a grid: a vertex for each used cell, and the triangles whose corners lie
in different cells, with the vertices of these cells as corners. -/
def quotientMesh (g : Geometry α) (cell : α) : Mesh α :=
  (g.separated cell).foldl
    (fun m t => m.addTriangle (g.cellImage cell t.1) (g.cellImage cell t.2.1) (g.cellImage cell t.2.2))
    (cellVertices (g.gridVertices cell) (g.usedKeys cell))

/-- A triangle is left exactly if its corners lie in different cells. -/
lemma survives_eq (g : Geometry α) (cell : α) (t : UInt32 × UInt32 × UInt32) :
    CoarseMesh.survives g.primitive (g.vertexKey cell t.1) (g.vertexKey cell t.2.1) (g.vertexKey cell t.2.2) =
      decide (g.Separates cell t) := by
  rw [Bool.eq_iff_iff, decide_eq_true_iff, Separates]
  cases g.primitive with
  | lines => simp [CoarseMesh.survives]
  | triangles => simp [CoarseMesh.survives, and_assoc]

/-- The table of the cells holds all vertices. -/
lemma holds_cellTable (g : Geometry α) (cell : α) :
    (g.cellTable cell).Holds ((g.gridVertices cell).map (·.key)).eraseDups (g.gridVertices cell) := by
  have h := CellTable.holds_foldl (g.gridVertices cell)
  rw [gridVertices, List.foldl_map] at h
  exact h

/-- The number of the cell of a vertex is the place of this cell in the order of first sight. -/
lemma number_eq {order : List GridKey} (h : (g.cellTable cell).Holds order (g.gridVertices cell)) {i : UInt32}
    (hi : i.toNat < g.vertexCount) :
    (g.cellTable cell).numbers.getD i.toNat 0 = order.idxOf (g.vertexKey cell i) ∧ g.vertexKey cell i ∈ order := by
  have hget : (g.gridVertices cell)[i.toNat]? =
      some ⟨g.vertexKey cell i, g.mesh.point i.toNat, g.mesh.normal i.toNat⟩ := by
    rw [gridVertices, List.getElem?_map, List.getElem?_range hi]
    rfl
  refine ⟨?_, h.covers _ (List.mem_of_getElem? hget)⟩
  rw [Array.getD_eq_getD_getElem?, ← Array.getElem?_toList, h.numbers, List.getElem?_map, hget]
  rfl

/-- The cells of the corners of a triangle. -/
def cornerKeys (g : Geometry α) (cell : α) (t : UInt32 × UInt32 × UInt32) : GridKey × GridKey × GridKey :=
  (g.vertexKey cell t.1, g.vertexKey cell t.2.1, g.vertexKey cell t.2.2)

/-- The corners that the loop keeps are those of the separated triangles. -/
lemma keptCorners_eq (g : Geometry α) (cell : α) :
    CoarseMesh.keptCorners g.primitive (g.mesh.triangles.map (g.cornerKeys cell)) =
      (g.separatedVertices cell).map (g.vertexKey cell) := by
  have hfilter : g.mesh.triangles.filter ((fun t => CoarseMesh.survives g.primitive t.1 t.2.1 t.2.2) ∘
      g.cornerKeys cell) = g.separated cell :=
    List.filter_congr fun t _ => g.survives_eq cell t
  rw [CoarseMesh.keptCorners, List.filter_map, hfilter, List.flatMap_map, separatedVertices, List.map_flatMap]
  rfl

/-- The loop over the triangles, with the places of the cells in place of their numbers in the table. -/
lemma clusterMesh_eq_foldl {order : List GridKey}
    (hnumber : ∀ i ∈ g.mesh.indices, (g.cellTable cell).numbers.getD i.toNat 0 = order.idxOf (g.vertexKey cell i)) :
    g.clusterMesh cell = ((g.mesh.triangles.map (g.cornerKeys cell)).foldl
      (fun m t => m.addTriangle g.primitive (order.idxOf t.1) (order.idxOf t.2.1) (order.idxOf t.2.2))
      (⟨(g.cellTable cell).clusters, Mesh.empty⟩ : CoarseMesh α)).mesh := by
  rw [List.foldl_map, clusterMesh]
  congr 1
  apply List.foldl_ext
  rintro m ⟨a, b, c⟩ ht
  obtain ⟨ha, hb, hc⟩ := mem_of_mem_triples ht
  simp only [cornerKeys]
  rw [hnumber a (Array.mem_toList_iff.mp ha), hnumber b (Array.mem_toList_iff.mp hb),
    hnumber c (Array.mem_toList_iff.mp hc)]

/-- After the loop over the triangles the mesh has those that are separated. -/
lemma exists_draws (hg : g.Accepted) (cell : α) :
    ∃ (m : CoarseMesh α) (order : List GridKey), g.clusterMesh cell = m.mesh ∧
      m.Draws (g.gridVertices cell) order (g.usedKeys cell) ((g.separatedVertices cell).map (g.vertexKey cell)) := by
  have htable := g.holds_cellTable cell
  generalize ((g.gridVertices cell).map (·.key)).eraseDups = order at htable
  have hcorner := fun i hi => number_eq htable (hg.spec.2.2 i hi)
  refine ⟨_, order, clusterMesh_eq_foldl fun i hi => (hcorner i hi).1, ?_⟩
  have hkeys : ∀ t ∈ g.mesh.triangles.map (g.cornerKeys cell), t.1 ∈ order ∧ t.2.1 ∈ order ∧ t.2.2 ∈ order := by
    intro t ht
    obtain ⟨s, hs, rfl⟩ := List.mem_map.mp ht
    obtain ⟨ha, hb, hc⟩ := mem_of_mem_triples hs
    rw [Array.mem_toList_iff] at ha hb hc
    exact ⟨(hcorner _ ha).2, (hcorner _ hb).2, (hcorner _ hc).2⟩
  have hstart : CoarseMesh.Draws ⟨(g.cellTable cell).clusters, Mesh.empty⟩ (g.gridVertices cell) order
      ([] : List GridKey).eraseDups [] := CoarseMesh.draws_start htable
  have hdraws := hstart.foldl g.primitive hkeys
  rw [List.nil_append, keptCorners_eq] at hdraws
  exact hdraws

/-- The two loops give the quotient of the mesh by the cells. -/
theorem clusterMesh_eq_quotientMesh (hg : g.Accepted) : g.clusterMesh cell = g.quotientMesh cell := by
  obtain ⟨m, order, hmesh, hdraws⟩ := exists_draws hg cell
  have hindices : m.mesh.indices.toList = (g.separated cell).flatMap fun t =>
      [g.cellImage cell t.1, g.cellImage cell t.2.1, g.cellImage cell t.2.2] := by
    rw [hdraws.indices, List.map_map, separatedVertices, List.map_flatMap]
    rfl
  have hnone : (cellVertices (g.gridVertices cell) (g.usedKeys cell)).indices = #[] := by
    rw [cellVertices, Mesh.indices_addVertices]
    rfl
  rw [hmesh, quotientMesh, Mesh.addTriangles_eq, ← hindices, hnone, ← hdraws.positions, ← hdraws.normals]
  simp

end Geometry

end BuildingModel
