import BuildingModel.Proofs.Space.Bounds
import BuildingModel.Proofs.View.Clustering

/-!
# Checked geometries

The check of a mesh accepts exactly the meshes with something to draw, whole vertices and triangles, corners that
are vertices, and finite positions. What is accepted keeps its positions and indices, has a normal for each vertex
and a tight box (`Geometry.FrozenFrom`). All variants of a geometry have passed the same check
(`Geometry.ofMesh_exact`).
-/

namespace BuildingModel

namespace Mesh

variable {m n : Mesh Float32}

/-- The points of finite positions are finite. -/
lemma finite_of_mem_points (hm : ∀ x ∈ m.positions, x.isFinite = true) : ∀ p ∈ m.points, p.Finite := by
  intro p hp
  obtain ⟨t, ht, rfl⟩ := List.mem_map.mp hp
  obtain ⟨hx, hy, hz⟩ := mem_of_mem_triples ht
  rw [Vec3.Finite, Axis.forall_iff]
  exact ⟨hm _ (Array.mem_toList_iff.mp hx), hm _ (Array.mem_toList_iff.mp hy), hm _ (Array.mem_toList_iff.mp hz)⟩

/-- A buffer of whole vertices that is not empty has a point. -/
lemma points_ne_nil (hne : m.positions ≠ #[]) (hthree : m.positions.size % 3 = 0) : m.points ≠ [] := by
  have hsize := Array.size_pos_iff.mpr hne
  rw [← List.length_pos_iff, length_points, vertexCount]
  omega

/-- The points depend on the positions only. -/
lemma points_congr (h : m.positions = n.positions) : m.points = n.points := by rw [points, points, h]

/-- The points of two buffers, one after the other, are the points of both. -/
lemma points_append {both : Mesh Float32} (h : both.positions = m.positions ++ n.positions)
    (hthree : m.positions.size % 3 = 0) : both.points = m.points ++ n.points := by
  have hlength : 3 ∣ m.positions.toList.length := by
    rw [Array.length_toList]
    exact Nat.dvd_of_mod_eq_zero hthree
  rw [points, h, Array.toList_append, triples_append hlength, List.map_append, points, points]

end Mesh

namespace Geometry

variable {g h : Geometry Float32} {m : Mesh Float32}

/-- The geometry has the positions and indices of a mesh, a normal for each vertex and a tight box. -/
structure FrozenFrom (g : Geometry Float32) (m : Mesh Float32) : Prop where
  positions : g.mesh.positions = m.positions
  indices : g.mesh.indices = m.indices
  normals : g.mesh.normals.size = g.mesh.positions.size
  bounds : g.bounds.Tight g.mesh.points

/-- A mesh is accepted exactly if it has no fault. -/
lemma exists_ofMesh_iff {entity : EntityId} {kind : Kind} {primitive : Primitive} {color : Color} :
    (∃ g, ofMesh entity kind primitive m color = .ok g) ↔ fault? entity m = none := by
  unfold ofMesh
  constructor
  · rintro ⟨g, hg⟩
    split at hg
    · cases hg
    · assumption
  · intro hfault
    rw [hfault]
    exact ⟨_, rfl⟩

/-- Completed normals are as many as the positions. -/
lemma size_normals_completeNormals (hthree : m.positions.size % 3 = 0) :
    (completeNormals m).normals.size = (completeNormals m).positions.size := by
  rw [(completeNormals_eq m).1]
  unfold completeNormals
  split
  · assumption
  · rw [Mesh.size_normals_recomputeNormals, Mesh.vertexCount]
    omega

/-- What is accepted keeps its buffers, and has normals and a tight box. -/
lemma frozenFrom_of_ofMesh {entity : EntityId} {kind : Kind} {primitive : Primitive} {color : Color}
    (hg : ofMesh entity kind primitive m color = .ok g) : g.FrozenFrom m := by
  obtain ⟨hne, -, hthree, -, -, hfinite⟩ := fault?_eq_none_iff.mp (exists_ofMesh_iff.mp ⟨g, hg⟩)
  unfold ofMesh at hg
  split at hg
  · cases hg
  · cases hg
    obtain ⟨hpositions, hindices⟩ := completeNormals_eq m
    refine ⟨hpositions, hindices, size_normals_completeNormals hthree, ?_⟩
    rw [Mesh.points_congr hpositions]
    exact Box.ofPoints_tight (Mesh.finite_of_mem_points hfinite) (Mesh.points_ne_nil hne hthree)

/-- The edges of the box are a checked mesh for the same entity. -/
lemma derive_of_wireframe? (hh : g.wireframe? = some h) : ∃ m, g.derive .lines m = .ok h := by
  unfold wireframe? at hh
  split at hh
  · cases hh
  · dsimp only at hh
    generalize boxEdges.foldl _ _ = m at hh
    refine ⟨m, ?_⟩
    cases hderive : g.derive .lines m with
    | error e =>
      rw [hderive] at hh
      cases hh
    | ok h' =>
      rw [hderive] at hh
      cases hh
      rfl

/-- A simpler variant is a checked mesh for the same entity. -/
lemma derive_of_mem_candidates {level : DetailLevel} (hh : (level, some h) ∈ DetailSet.candidates g) :
    ∃ primitive m, g.derive primitive m = .ok h := by
  unfold DetailSet.candidates at hh
  dsimp only at hh
  rcases List.mem_append.mp hh with hh | hh
  · split at hh
    · simp only [List.mem_cons, Prod.mk.injEq, List.not_mem_nil, or_false] at hh
      rcases hh with ⟨-, hh⟩ | ⟨-, hh⟩
      · exact ⟨_, _, (cluster?_eq_some_iff.mp hh.symm).2.2⟩
      · exact ⟨_, _, (cluster?_eq_some_iff.mp hh.symm).2.2⟩
    · cases hh
  · simp only [List.mem_cons, Prod.mk.injEq, List.not_mem_nil, or_false] at hh
    obtain ⟨m, hm⟩ := derive_of_wireframe? hh.2.symm
    exact ⟨_, m, hm⟩

end Geometry

/-- Every variant is the geometry itself or a candidate. -/
lemma DetailSet.mem_variants_build {α : Type} [Stored α] {high : Geometry α} {v : DetailLevel × Geometry α}
    (hv : v ∈ (build high).variants) : v = (.high, high) ∨ (v.1, some v.2) ∈ candidates high := by
  have hfold : ∀ (cs : List (DetailLevel × Option (Geometry α))) (s : DetailSet α), v ∈ (cs.foldl consider s).variants →
      v ∈ s.variants ∨ (v.1, some v.2) ∈ cs := by
    intro cs
    induction cs with
    | nil => exact fun s hs => .inl hs
    | cons c cs ih =>
      intro s hs
      rcases ih (s.consider c) hs with hs | hs
      · obtain ⟨level, _ | g⟩ := c
        · exact .inl hs
        · rw [consider] at hs
          split at hs
          · rw [show DetailSet.variants { s with coarser := s.coarser ++ [(level, g)] } =
              s.variants ++ [(level, g)] from rfl, List.mem_append, List.mem_singleton] at hs
            rcases hs with hs | rfl
            · exact .inl hs
            · exact .inr List.mem_cons_self
          · exact .inl hs
      · exact .inr (List.mem_cons_of_mem c hs)
  rcases hfold _ _ hv with hv | hv
  · exact .inl (List.mem_singleton.mp hv)
  · exact .inr hv

/-- A mesh is accepted exactly if there is something to draw, if its buffers hold whole vertices and triangles, if
all corners are vertices and all positions finite. Every accepted, derived or simplified geometry has the positions
and indices of its mesh, a normal for each vertex and a tight box, and the box of two buffers of whole vertices is
the union of their boxes. The mesh is taken to have fewer than `2 ^ 32` vertices, because corners are compared with
the number of vertices in 32 bits. -/
theorem Geometry.ofMesh_exact :
    (∀ (entity : EntityId) (kind : Kind) (primitive : Primitive) (m : Mesh Float32) (color : Color),
      (m.vertexCount < UInt32.size → ((∃ g, ofMesh entity kind primitive m color = .ok g) ↔
        m.positions ≠ #[] ∧ m.indices ≠ #[] ∧ m.positions.size % 3 = 0 ∧ m.indices.size % 3 = 0 ∧
          (∀ i ∈ m.indices, i.toNat < m.vertexCount) ∧ ∀ x ∈ m.positions, x.isFinite = true)) ∧
      ∀ g, ofMesh entity kind primitive m color = .ok g →
        g.FrozenFrom m ∧ ∀ v ∈ (DetailSet.build g).variants,
          v.2 = g ∨ ∃ primitive' m', g.derive primitive' m' = .ok v.2 ∧ v.2.FrozenFrom m') ∧
    (∀ (g : Geometry Float32) (primitive : Primitive) (m : Mesh Float32) (h : Geometry Float32),
      g.derive primitive m = .ok h → h.FrozenFrom m) ∧
    ∀ m n both : Mesh Float32, both.positions = m.positions ++ n.positions →
      m.positions.size % 3 = 0 → n.positions.size % 3 = 0 → (∀ x ∈ both.positions, x.isFinite = true) →
      Box.ofPoints both.points = (Box.ofPoints m.points).union (Box.ofPoints n.points) := by
  refine ⟨?_, ?_, ?_⟩
  · intro entity kind primitive m color
    refine ⟨fun hfits => exists_ofMesh_iff.trans (fault?_eq_none_iff_of_fits hfits), ?_⟩
    intro g hg
    refine ⟨frozenFrom_of_ofMesh hg, ?_⟩
    intro v hv
    rcases DetailSet.mem_variants_build hv with rfl | hv
    · exact .inl rfl
    · obtain ⟨primitive', m', hderive⟩ := derive_of_mem_candidates hv
      exact .inr ⟨primitive', m', hderive, frozenFrom_of_ofMesh hderive⟩
  · intro g primitive m h hderive
    exact frozenFrom_of_ofMesh hderive
  · intro m n both hboth hm _ hfinite
    have hmem : ∀ x, x ∈ m.positions ∨ x ∈ n.positions → x.isFinite = true := by
      intro x hx
      exact hfinite x (hboth ▸ Array.mem_append.mpr hx)
    rw [Mesh.points_append hboth hm]
    exact Box.ofPoints_append (Mesh.finite_of_mem_points fun x hx => hmem x (.inl hx))
      (Mesh.finite_of_mem_points fun x hx => hmem x (.inr hx))

/-- Two triangles between three vertices. Their coordinates are as far apart as any and have zeros of both signs, and
only the first vertex has a normal. -/
def Mesh.sail : Mesh Float32 :=
  ⟨#[Scalar.largest, 0, -0, -Scalar.largest, 1, 0, 0, 1, -1], #[0, 0, 1], #[0, 1, 2, 2, 1, 0]⟩

/-- All coordinates of the sail are finite. -/
lemma Mesh.isFinite_sail : ∀ x ∈ sail.positions, x.isFinite = true := by
  have hzero : (0 : Float32).isFinite = true := by decide +kernel
  have hone : (1 : Float32).isFinite = true := by decide +kernel
  intro x hx
  simp only [sail, List.mem_toArray, List.mem_cons, List.not_mem_nil, or_false] at hx
  rcases hx with rfl | rfl | rfl | rfl | rfl | rfl | rfl | rfl | rfl
  · exact Single.isFinite_largest
  · exact hzero
  · exact Single.isFinite_neg hzero
  · exact Single.isFinite_neg Single.isFinite_largest
  · exact hone
  · exact hzero
  · exact hzero
  · exact hone
  · exact Single.isFinite_neg hone

/-- The sail is accepted, gets the normals that it lacks, and has tight bounds. -/
theorem Geometry.ofMesh_exact_sail :
    (∃ g, ofMesh 1 .wall .lines Mesh.sail ⟨0, 0, 0⟩ = .ok g ∧ g.FrozenFrom Mesh.sail ∧
      (∃ h, g.derive .triangles Mesh.sail = .ok h ∧ h.FrozenFrom Mesh.sail) ∧
      ∀ v ∈ (DetailSet.build g).variants,
        v.2 = g ∨ ∃ primitive m, g.derive primitive m = .ok v.2 ∧ v.2.FrozenFrom m) ∧
    Box.ofPoints (Mesh.points ⟨Mesh.sail.positions ++ Mesh.sail.positions, #[], #[]⟩) =
      (Box.ofPoints Mesh.sail.points).union (Box.ofPoints Mesh.sail.points) := by
  have hsound : Mesh.sail.positions ≠ #[] ∧ Mesh.sail.indices ≠ #[] ∧ Mesh.sail.positions.size % 3 = 0 ∧
      Mesh.sail.indices.size % 3 = 0 ∧ (∀ i ∈ Mesh.sail.indices, i.toNat < Mesh.sail.vertexCount) ∧
      ∀ x ∈ Mesh.sail.positions, x.isFinite = true := by
    refine ⟨?_, ?_, ?_, ?_, ?_, Mesh.isFinite_sail⟩ <;> simp [Mesh.sail, Mesh.vertexCount]
  have hfits : Mesh.sail.vertexCount < UInt32.size := by decide
  obtain ⟨hcheck, hderive, hunion⟩ := ofMesh_exact
  obtain ⟨hexists, hfrozen⟩ := hcheck 1 .wall .lines Mesh.sail ⟨0, 0, 0⟩
  obtain ⟨g, hg⟩ := (hexists hfits).mpr hsound
  obtain ⟨h, hh⟩ := ((hcheck g.entity g.kind .triangles Mesh.sail g.color).1 hfits).mpr hsound
  refine ⟨⟨g, hg, (hfrozen g hg).1, ⟨h, hh, hderive g .triangles Mesh.sail h hh⟩, (hfrozen g hg).2⟩, ?_⟩
  apply hunion Mesh.sail Mesh.sail _ rfl hsound.2.2.1 hsound.2.2.1
  intro x hx
  exact (Array.mem_append.mp hx).elim (Mesh.isFinite_sail x) (Mesh.isFinite_sail x)

end BuildingModel
