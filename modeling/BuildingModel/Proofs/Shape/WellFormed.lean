import BuildingModel.Shape.Geometry
import Mathlib

/-!
# Well-formed meshes

A mesh is well formed if its buffers hold whole vertices and whole triangles, if it has as many normals as
positions, and if every corner of a triangle is a vertex. Every operation on meshes keeps this. Indices have 32
bits; a number that is too large for them is reduced, which never makes it larger (`toNat_nextIndex_add_le`), so
that no bound on the number of vertices is needed.
-/

namespace BuildingModel

/-- The parts of a triple are entries of the list. -/
lemma mem_of_mem_triples {β : Type} {xs : List β} {t : β × β × β} (h : t ∈ triples xs) :
    t.1 ∈ xs ∧ t.2.1 ∈ xs ∧ t.2.2 ∈ xs := by
  fun_induction triples xs with
  | case1 a b c rest ih =>
    rcases List.mem_cons.mp h with rfl | h
    · simp
    · obtain ⟨h₁, h₂, h₃⟩ := ih h
      simp [h₁, h₂, h₃]
  | case2 => cases h

/-- Changing triples keeps the number of entries. -/
@[simp]
lemma length_mapTriples {β : Type} (f : β × β × β → β × β × β) (xs : List β) :
    (mapTriples f xs).length = xs.length := by
  fun_induction mapTriples f xs with
  | case1 a b c rest x y z hxyz ih => simp [ih]
  | case2 => rfl

/-- What permutes the members of each group permutes the list. -/
lemma mapTriples_perm {β : Type} {f : β × β × β → β × β × β}
    (hf : ∀ a b c, [(f (a, b, c)).1, (f (a, b, c)).2.1, (f (a, b, c)).2.2].Perm [a, b, c]) (xs : List β) :
    (mapTriples f xs).Perm xs := by
  fun_induction mapTriples f xs with
  | case1 a b c rest x y z hxyz ih =>
    have hhead := hf a b c
    rw [hxyz] at hhead
    exact hhead.append ih
  | case2 => exact .refl _

/-- A number in 32 bits is not greater than the number itself. -/
lemma toNat_toUInt32_le (n : Nat) : n.toUInt32.toNat ≤ n := Nat.mod_le n _

namespace Mesh

variable {α : Type} {m n : Mesh α}

/-- Whole vertices with normals, and whole triangles between them. -/
structure WellFormed (m : Mesh α) : Prop where
  positions : 3 ∣ m.positions.size
  normals : m.normals.size = m.positions.size
  indices : 3 ∣ m.indices.size
  corners : ∀ i ∈ m.indices, i.toNat < m.vertexCount

lemma wellFormed_empty : (empty : Mesh α).WellFormed :=
  ⟨Nat.dvd_zero 3, rfl, Nat.dvd_zero 3, fun i hi => absurd hi (Array.not_mem_empty i)⟩

/-- An index that is counted from the next vertex on does not lie beyond its number, even if it overflows. -/
lemma toNat_nextIndex_add_le (m : Mesh α) (i : UInt32) : (m.nextIndex + i).toNat ≤ m.vertexCount + i.toNat := by
  rw [UInt32.toNat_add]
  exact (Nat.mod_le _ _).trans (Nat.add_le_add_right (toNat_toUInt32_le _) _)

/-! ## Vertices -/

/-- A vertex has three coordinates. -/
@[simp]
lemma size_positions_addVertex (m : Mesh α) (position normal : Vec3 α) :
    (m.addVertex position normal).positions.size = m.positions.size + 3 := by
  simp [addVertex, Vec3.toList]

@[simp]
lemma size_normals_addVertex (m : Mesh α) (position normal : Vec3 α) :
    (m.addVertex position normal).normals.size = m.normals.size + 3 := by
  simp [addVertex, Vec3.toList]

/-- A new vertex is counted. -/
@[simp]
lemma vertexCount_addVertex (m : Mesh α) (position normal : Vec3 α) :
    (m.addVertex position normal).vertexCount = m.vertexCount + 1 := by
  rw [vertexCount, size_positions_addVertex, Nat.add_div_right _ (Nat.succ_pos 2)]
  rfl

/-- A new vertex leaves a mesh well formed. -/
lemma WellFormed.addVertex (h : m.WellFormed) (position normal : Vec3 α) :
    (m.addVertex position normal).WellFormed := by
  refine ⟨?_, ?_, h.indices, ?_⟩
  · rw [size_positions_addVertex]
    exact Nat.dvd_add h.positions (Nat.dvd_refl 3)
  · rw [size_normals_addVertex, size_positions_addVertex, h.normals]
  · intro i hi
    rw [vertexCount_addVertex]
    exact Nat.lt_succ_of_lt (h.corners i hi)

/-- Well formed, with a given number of vertices. -/
def WellFormedOn (count : Nat) (m : Mesh α) : Prop := m.WellFormed ∧ m.vertexCount = count

/-- It is counted in the number of vertices. -/
lemma WellFormedOn.addVertex {count : Nat} (h : m.WellFormedOn count) (position normal : Vec3 α) :
    (m.addVertex position normal).WellFormedOn (count + 1) := by
  obtain ⟨hm, rfl⟩ := h
  exact ⟨hm.addVertex position normal, m.vertexCount_addVertex position normal⟩

section Vertices

variable {β : Type} (position normal : β → Vec3 α) (ps : List β)

/-- So are several of them. The induction is on their list. -/
lemma WellFormedOn.addVertices {count : Nat} (h : m.WellFormedOn count) :
    (ps.foldl (fun m p => m.addVertex (position p) (normal p)) m).WellFormedOn (count + ps.length) := by
  induction ps generalizing m count with
  | nil => exact h
  | cons p ps ih =>
    rw [List.length_cons, Nat.add_comm ps.length 1, ← Nat.add_assoc]
    exact ih (h.addVertex (position p) (normal p))

end Vertices

/-! ## Triangles -/

@[simp]
lemma vertexCount_addTriangle (m : Mesh α) (a b c : UInt32) :
    (m.addTriangle a b c).vertexCount = m.vertexCount := rfl

/-- A triangle has three indices. -/
@[simp]
lemma size_indices_addTriangle (m : Mesh α) (a b c : UInt32) :
    (m.addTriangle a b c).indices.size = m.indices.size + 3 := by
  simp [addTriangle]

/-- A triangle between vertices of a mesh leaves it well formed. -/
lemma WellFormed.addTriangle (h : m.WellFormed) {a b c : UInt32} (ha : a.toNat < m.vertexCount)
    (hb : b.toNat < m.vertexCount) (hc : c.toNat < m.vertexCount) : (m.addTriangle a b c).WellFormed := by
  refine ⟨h.positions, h.normals, ?_, ?_⟩
  · rw [size_indices_addTriangle]
    exact Nat.dvd_add h.indices (Nat.dvd_refl 3)
  · intro i hi
    have hi : ((i ∈ m.indices ∨ i = a) ∨ i = b) ∨ i = c := by simpa [Mesh.addTriangle] using hi
    rcases hi with ((hi | rfl) | rfl) | rfl
    · exact h.corners i hi
    · exact ha
    · exact hb
    · exact hc

/-- It does not change the number of vertices. -/
lemma WellFormedOn.addTriangle {count : Nat} (h : m.WellFormedOn count) {a b c : UInt32} (ha : a.toNat < count)
    (hb : b.toNat < count) (hc : c.toNat < count) : (m.addTriangle a b c).WellFormedOn count := by
  obtain ⟨hm, rfl⟩ := h
  exact ⟨hm.addTriangle ha hb hc, rfl⟩

/-! ## Whole meshes -/

/-- Two well-formed meshes are well formed together: the indices of the second are moved behind the first. -/
lemma WellFormed.merge (hm : m.WellFormed) (hn : n.WellFormed) : (m.merge n).WellFormed := by
  unfold Mesh.merge
  split
  · exact hm
  · have hcount : (m.positions.size + n.positions.size) / 3 = m.vertexCount + n.vertexCount :=
      Nat.add_div_of_dvd_right hm.positions
    refine ⟨?_, ?_, ?_, ?_⟩
    · rw [Array.size_append]
      exact Nat.dvd_add hm.positions hn.positions
    · rw [Array.size_append, Array.size_append, hm.normals, hn.normals]
    · rw [Array.size_append, Array.size_map]
      exact Nat.dvd_add hm.indices hn.indices
    · intro i hi
      rw [vertexCount, Array.size_append, hcount]
      rcases Array.mem_append.mp hi with hi | hi
      · exact Nat.lt_add_right _ (hm.corners i hi)
      · obtain ⟨k, hk, rfl⟩ := Array.mem_map.mp hi
        rw [UInt32.add_comm]
        exact (m.toNat_nextIndex_add_le k).trans_lt (Nat.add_lt_add_left (hn.corners k hk) _)

/-- Positions and normals may be replaced one by one. -/
lemma WellFormed.withBuffers (h : m.WellFormed) {positions normals : Array α}
    (hp : positions.size = m.positions.size) (hn : normals.size = m.positions.size) :
    ({ m with positions := positions, normals := normals } : Mesh α).WellFormed := by
  refine ⟨hp ▸ h.positions, hn.trans hp.symm, h.indices, ?_⟩
  intro i hi
  rw [vertexCount, hp]
  exact h.corners i hi

/-- Turning the triangles over keeps a mesh well formed. -/
lemma WellFormed.turnOver (h : m.WellFormed) : m.turnOver.WellFormed := by
  refine ⟨h.positions, h.normals, ?_, ?_⟩
  · rw [Mesh.turnOver, List.size_toArray, length_mapTriples, Array.length_toList]
    exact h.indices
  · intro i hi
    have hperm := mapTriples_perm (f := fun t => (t.1, t.2.2, t.2.1))
      (fun (a b c : UInt32) => .cons a (.swap b c [])) m.indices.toList
    apply h.corners i
    rw [Mesh.turnOver, List.mem_toArray] at hi
    exact Array.mem_toList_iff.mp (hperm.mem_iff.mp hi)

variable [Scalar α]

/-- Scaling keeps it well formed. -/
lemma WellFormed.scale (h : m.WellFormed) (factor : α) : (m.scale factor).WellFormed := by
  rw [Mesh.scale]
  split
  · exact h
  · exact h.withBuffers Array.size_map h.normals

/-- There is a sum of normals for each vertex. -/
lemma size_summedNormals (m : Mesh α) : m.summedNormals.size = m.vertexCount := by
  rw [summedNormals]
  refine List.foldlRecOn (motive := fun (sums : Array (Vec3 α)) => sums.size = m.vertexCount) _ _ ?_ ?_
  · exact Array.size_replicate
  · intro sums hsums t ht
    simp only [Array.size_modify, hsums]

/-- There is a new normal for each vertex. -/
lemma size_normals_recomputeNormals (m : Mesh α) : m.recomputeNormals.normals.size = 3 * m.vertexCount := by
  have hlength : ∀ ns : List (Vec3 α), (ns.flatMap fun n =>
      ((n.normalize? 1e-12).getD Vec3.unitZ).toList).length = 3 * ns.length := by
    intro ns
    induction ns with
    | nil => rfl
    | cons n ns ih =>
      rw [List.flatMap_cons, List.length_append, ih, List.length_cons, Nat.mul_succ, Nat.add_comm]
      rfl
  rw [recomputeNormals, List.size_toArray, hlength, Array.length_toList, size_summedNormals]

/-- New normals keep it well formed. -/
lemma WellFormed.recomputeNormals (h : m.WellFormed) : m.recomputeNormals.WellFormed :=
  h.withBuffers rfl (m.size_normals_recomputeNormals.trans (Nat.mul_div_cancel' h.positions))

end Mesh

/-- Mapping a buffer keeps its length. -/
lemma size_mapBuffer (f : Vec3 Float → Vec3 Float) (buffer : Array Float32) :
    (mapBuffer f buffer).size = buffer.size := by
  simp [mapBuffer]

/-- Transforming keeps it well formed. -/
lemma Mesh.WellFormed.transform {m : Mesh Float32} (h : m.WellFormed) (t : Mat4 Float) :
    (m.transform t).WellFormed :=
  h.withBuffers (size_mapBuffer _ _) ((size_mapBuffer _ _).trans h.normals)

end BuildingModel
