import BuildingModel.Proofs.Space.Rational
import BuildingModel.Proofs.View.Cells

/-!
# Geometries on a grid

Gathering the vertices of a geometry in the cells of a grid gives a quotient of its mesh. The triangles that are
left are those whose corners lie in different cells, in their order, with each corner replaced by the vertex of its
cell; two vertices become one exactly if they lie in one cell. `Geometry.QuotientBy` says so, and
`Geometry.cluster?_quotient` that it holds of every geometry on a grid. The loops that make the mesh give the quotient
mesh (`Geometry.clusterMesh_eq_quotientMesh`), and the proofs here are about the latter.
-/

namespace BuildingModel

/-! ## Groups of three -/

/-- The groups of a list that is put together of groups. -/
lemma triples_flatMap {β ι : Type} (a b c : ι → β) (ts : List ι) :
    triples (ts.flatMap fun t => [a t, b t, c t]) = ts.map fun t => (a t, b t, c t) := by
  induction ts with
  | nil => rfl
  | cons t ts ih =>
    rw [List.flatMap_cons, List.map_cons, ← ih]
    rfl

namespace Geometry

variable {α : Type} [Stored α] {g h : Geometry α} {cell : α}

/-- The cells in which vertices lie. -/
def occupiedCells (g : Geometry α) (cell : α) : Finset GridKey := (g.mesh.points.map (g.gridKey cell)).toFinset

/-- The geometry `h` is the quotient of `g` by the cells of a grid, where `image` gives the vertex of a cell. -/
structure QuotientBy (g h : Geometry α) (cell : α) (image : UInt32 → UInt32) : Prop where
  image_lt : ∀ i ∈ g.separatedVertices cell, (image i).toNat < h.vertexCount
  image_eq_iff : ∀ i ∈ g.separatedVertices cell, ∀ j ∈ g.separatedVertices cell,
    (image i = image j ↔ g.vertexKey cell i = g.vertexKey cell j)
  indices : h.mesh.indices.toList = (g.separatedVertices cell).map image
  triangles : h.mesh.triangles = (g.separated cell).map fun t => (image t.1, image t.2.1, image t.2.2)
  segments : g.primitive = .lines → (∀ t ∈ g.mesh.triangles, t.2.1 = t.2.2) →
    ∀ t ∈ h.mesh.triangles, t.2.1 = t.2.2
  used : ∀ v < h.vertexCount, ∃ t ∈ h.mesh.triangles, v = t.1.toNat ∨ v = t.2.1.toNat ∨ v = t.2.2.toNat
  vertexCount_le : h.vertexCount ≤ (g.occupiedCells cell).card
  entity : h.entity = g.entity
  kind : h.kind = g.kind
  color : h.color = g.color
  primitive : h.primitive = g.primitive

/-! ## Cells -/

/-- The cell of a vertex is that of its position. -/
lemma exists_vertexKey_eq {i : UInt32} (hi : i.toNat < g.vertexCount) (cell : α) :
    ∃ p, g.mesh.points[i.toNat]? = some p ∧ g.vertexKey cell i = g.gridKey cell p := by
  rw [vertexCount, ← Mesh.length_points] at hi
  have hget : g.mesh.points[i.toNat]? = some g.mesh.points[i.toNat] := List.getElem?_eq_getElem hi
  refine ⟨_, hget, ?_⟩
  rw [vertexKey, Mesh.point_of_points hget]

/-- No cell is used twice. -/
lemma nodup_usedKeys (g : Geometry α) (cell : α) : (g.usedKeys cell).Nodup := nodup_eraseDups _

/-- The used cells are those of the corners of separated triangles. -/
lemma mem_usedKeys_iff {key : GridKey} :
    key ∈ g.usedKeys cell ↔ ∃ i ∈ g.separatedVertices cell, g.vertexKey cell i = key := by
  rw [usedKeys, List.mem_eraseDups, List.mem_map]

/-- A corner of a separated triangle is a corner of a triangle. -/
lemma mem_indices_of_mem_separatedVertices {i : UInt32} (hi : i ∈ g.separatedVertices cell) :
    i ∈ g.mesh.indices := by
  obtain ⟨t, ht, hi⟩ := List.mem_flatMap.mp hi
  obtain ⟨ha, hb, hc⟩ := mem_of_mem_triples (List.mem_of_mem_filter ht)
  rw [← Array.mem_toList_iff]
  simp only [List.mem_cons, List.not_mem_nil, or_false] at hi
  rcases hi with rfl | rfl | rfl
  · exact ha
  · exact hb
  · exact hc

/-- The vertices that a triangle may have as corners are fewer than the numbers of 32 bits, and so are their cells. -/
lemma length_usedKeys_lt (hg : g.Accepted) (cell : α) : (g.usedKeys cell).length < UInt32.size := by
  have hsubset : (g.usedKeys cell).toFinset ⊆
      (Finset.range g.vertexCount.toUInt32.toNat).image fun n => g.vertexKey cell n.toUInt32 := by
    intro key hkey
    obtain ⟨i, hi, rfl⟩ := mem_usedKeys_iff.mp (List.mem_toFinset.mp hkey)
    have hlt := hg.checked.2.2 i (mem_indices_of_mem_separatedVertices hi)
    refine Finset.mem_image.mpr ⟨i.toNat, Finset.mem_range.mpr hlt, ?_⟩
    rw [Nat.toUInt32_eq, UInt32.ofNat_toNat]
  rw [← List.toFinset_card_of_nodup (g.nodup_usedKeys cell)]
  refine (Finset.card_le_card hsubset).trans_lt (Finset.card_image_le.trans_lt ?_)
  rw [Finset.card_range]
  exact UInt32.toNat_lt_size _

/-- No more cells are used than there are vertices in. -/
lemma length_usedKeys_le_card (hg : g.Accepted) : (g.usedKeys cell).length ≤ (g.occupiedCells cell).card := by
  rw [← List.toFinset_card_of_nodup (g.nodup_usedKeys cell)]
  apply Finset.card_le_card
  intro key hkey
  obtain ⟨i, hi, rfl⟩ := mem_usedKeys_iff.mp (List.mem_toFinset.mp hkey)
  obtain ⟨p, hget, hkey⟩ := exists_vertexKey_eq (hg.spec.2.2 i (mem_indices_of_mem_separatedVertices hi)) cell
  rw [occupiedCells, List.mem_toFinset, hkey]
  exact List.mem_map_of_mem (List.mem_of_getElem? hget)

/-- The cell of a corner of a separated triangle has a place. -/
lemma idxOf_vertexKey_lt {i : UInt32} (hi : i ∈ g.separatedVertices cell) :
    (g.usedKeys cell).idxOf (g.vertexKey cell i) < (g.usedKeys cell).length :=
  List.idxOf_lt_length_of_mem (mem_usedKeys_iff.mpr ⟨i, hi, rfl⟩)

/-- The vertex of a cell is the place of the cell in the order of first use. -/
lemma toNat_cellImage (hg : g.Accepted) {i : UInt32} (hi : i ∈ g.separatedVertices cell) :
    (g.cellImage cell i).toNat = (g.usedKeys cell).idxOf (g.vertexKey cell i) :=
  Nat.mod_eq_of_lt ((idxOf_vertexKey_lt hi).trans (length_usedKeys_lt hg cell))

/-! ## The mesh on the grid -/

/-- The corners on the grid are the vertices of the cells of the corners that are left. -/
lemma indices_clusterMesh (hg : g.Accepted) :
    (g.clusterMesh cell).indices.toList = (g.separatedVertices cell).map (g.cellImage cell) := by
  rw [clusterMesh_eq_quotientMesh hg, quotientMesh, Mesh.addTriangles_eq, cellVertices, Mesh.indices_addVertices,
    separatedVertices, List.map_flatMap, Array.toList_appendList]
  rfl

/-- The mesh on the grid is well formed and has a vertex for each used cell. -/
lemma wellFormedOn_clusterMesh (hg : g.Accepted) :
    (g.clusterMesh cell).WellFormedOn (g.usedKeys cell).length := by
  rw [clusterMesh_eq_quotientMesh hg, quotientMesh]
  refine List.foldlRecOn (motive := fun (m : Mesh α) => m.WellFormedOn (g.usedKeys cell).length) _ _
    (wellFormedOn_cellVertices _ _) ?_
  intro m hm t ht
  have hcorner : ∀ i ∈ [t.1, t.2.1, t.2.2], (g.cellImage cell i).toNat < (g.usedKeys cell).length := by
    intro i hi
    have hi : i ∈ g.separatedVertices cell := List.mem_flatMap.mpr ⟨t, ht, hi⟩
    rw [toNat_cellImage hg hi]
    exact idxOf_vertexKey_lt hi
  exact hm.addTriangle (hcorner _ (by simp)) (hcorner _ (by simp)) (hcorner _ (by simp))

/-- A geometry on the grid is the checked mesh on the grid. -/
lemma cluster?_eq_some_iff :
    g.cluster? cell = some h ↔
      0 < cell ∧ (g.clusterMesh cell).indices ≠ #[] ∧ g.derive g.primitive (g.clusterMesh cell) = .ok h := by
  rw [cluster?]
  split
  · rename_i hpositive
    simp only
    split
    · rename_i hempty
      rw [Array.isEmpty_iff] at hempty
      simp [hempty]
    · rename_i hempty
      rw [Array.isEmpty_iff] at hempty
      cases hderive : g.derive g.primitive (g.clusterMesh cell) with
      | error problem => simp [Except.toOption]
      | ok h' => simp [Except.toOption, hpositive, hempty]
  · rename_i hpositive
    simp [hpositive]

/-- A derived geometry keeps what it is derived from, and has the buffers of its mesh. -/
lemma derive_eq_ok {m : Mesh α} {primitive : Primitive} (hderive : g.derive primitive m = .ok h) :
    h.entity = g.entity ∧ h.kind = g.kind ∧ h.color = g.color ∧ h.primitive = primitive ∧
      h.mesh.positions = m.positions ∧ h.mesh.indices = m.indices := by
  unfold derive ofMesh at hderive
  split at hderive
  · cases hderive
  · cases hderive
    exact ⟨rfl, rfl, rfl, rfl, completeNormals_eq m⟩

/-- A mesh without fault gives a derived geometry. -/
lemma exists_derive_eq_ok {m : Mesh α} (primitive : Primitive) (hfault : fault? g.entity m = none) :
    ∃ h, g.derive primitive m = .ok h := by
  rw [derive, ofMesh, hfault]
  exact ⟨_, rfl⟩

/-- Every vertex on the grid is a corner of a triangle on the grid. -/
lemma exists_cellImage_eq (hg : g.Accepted) {v : Nat} (hv : v < (g.usedKeys cell).length) :
    ∃ i ∈ g.separatedVertices cell, v = (g.cellImage cell i).toNat := by
  obtain ⟨i, hi, hkey⟩ := mem_usedKeys_iff.mp (List.getElem_mem hv)
  refine ⟨i, hi, ?_⟩
  rw [toNat_cellImage hg hi, hkey, (g.nodup_usedKeys cell).idxOf_getElem v hv]

/-- A geometry on a grid is the quotient by the cells. -/
lemma quotientBy_of_cluster? (hg : g.Accepted) (hh : g.cluster? cell = some h) :
    g.QuotientBy h cell (g.cellImage cell) := by
  obtain ⟨-, -, hderive⟩ := cluster?_eq_some_iff.mp hh
  obtain ⟨hentity, hkind, hcolor, hprimitive, hpositions, hindices⟩ := derive_eq_ok hderive
  have hcount : h.vertexCount = (g.usedKeys cell).length := by
    rw [vertexCount, Mesh.vertexCount, hpositions]
    exact (wellFormedOn_clusterMesh hg).2
  have hbuffer : h.mesh.indices.toList = (g.separatedVertices cell).map (g.cellImage cell) := by
    rw [hindices, indices_clusterMesh hg]
  have htriangles : h.mesh.triangles = (g.separated cell).map fun t =>
      (g.cellImage cell t.1, g.cellImage cell t.2.1, g.cellImage cell t.2.2) := by
    rw [Mesh.triangles, hbuffer, separatedVertices, List.map_flatMap, ← triples_flatMap]
    rfl
  constructor
  case image_lt =>
    intro i hi
    rw [hcount, toNat_cellImage hg hi]
    exact idxOf_vertexKey_lt hi
  case image_eq_iff =>
    intro i hi j hj
    rw [← UInt32.toNat_inj, toNat_cellImage hg hi, toNat_cellImage hg hj]
    exact List.idxOf_inj (mem_usedKeys_iff.mpr ⟨i, hi, rfl⟩)
  case indices => exact hbuffer
  case triangles => exact htriangles
  case segments =>
    intro _ hsegments t ht
    obtain ⟨s, hs, rfl⟩ := List.mem_map.mp (htriangles ▸ ht)
    rw [hsegments s (List.mem_of_mem_filter hs)]
  case used =>
    intro v hv
    obtain ⟨i, hi, rfl⟩ := exists_cellImage_eq hg (hcount ▸ hv)
    obtain ⟨t, ht, hi⟩ := List.mem_flatMap.mp hi
    refine ⟨_, htriangles ▸ List.mem_map_of_mem ht, ?_⟩
    simp only [List.mem_cons, List.not_mem_nil, or_false] at hi
    rcases hi with rfl | rfl | rfl
    · exact .inl rfl
    · exact .inr (.inl rfl)
    · exact .inr (.inr rfl)
  case vertexCount_le =>
    rw [hcount]
    exact length_usedKeys_le_card hg
  case entity => exact hentity
  case kind => exact hkind
  case color => exact hcolor
  case primitive => exact hprimitive

/-- The mesh on the grid is empty exactly if no triangle is separated. -/
lemma indices_clusterMesh_eq_empty_iff (hg : g.Accepted) :
    (g.clusterMesh cell).indices = #[] ↔ ∀ t ∈ g.mesh.triangles, ¬ g.Separates cell t := by
  rw [← Array.toList_eq_nil_iff, indices_clusterMesh hg, List.map_eq_nil_iff, separatedVertices,
    List.flatMap_eq_nil_iff, separated]
  simp

/-- A mesh on the grid with a triangle and finite positions has no fault. -/
lemma fault?_clusterMesh (hg : g.Accepted) (hindices : (g.clusterMesh cell).indices ≠ #[])
    (hfinite : ∀ x ∈ (g.clusterMesh cell).positions, Scalar.isFinite x = true) (entity : EntityId) :
    fault? entity (g.clusterMesh cell) = none := by
  have hwell : (g.clusterMesh cell).WellFormed := (wellFormedOn_clusterMesh hg).1
  have hfits : (g.clusterMesh cell).vertexCount < UInt32.size :=
    (wellFormedOn_clusterMesh hg).2.trans_lt (length_usedKeys_lt hg cell)
  obtain ⟨i, hi⟩ := Array.exists_mem_of_ne_empty _ hindices
  refine (fault?_eq_none_iff_of_fits hfits).mpr ⟨?_, hindices, Nat.mod_eq_zero_of_dvd hwell.positions,
    Nat.mod_eq_zero_of_dvd hwell.indices, hwell.corners, hfinite⟩
  intro hempty
  have hlt := hwell.corners i hi
  rw [Mesh.vertexCount, hempty, Array.size_empty, Nat.zero_div] at hlt
  exact Nat.not_lt_zero _ hlt

/-- A geometry on a grid is the quotient by its cells. There is none if no triangle is left; if one is left and
the positions are finite, there is one. -/
theorem cluster?_quotient (g : Geometry α) (hg : g.Accepted) (cell : α) :
    (∀ h, g.cluster? cell = some h → ∃ image, g.QuotientBy h cell image) ∧
    ((∀ t ∈ g.mesh.triangles, ¬ g.Separates cell t) → g.cluster? cell = none) ∧
    (0 < cell → (∃ t ∈ g.mesh.triangles, g.Separates cell t) →
      (∀ x ∈ (g.clusterMesh cell).positions, Scalar.isFinite x = true) → ∃ h, g.cluster? cell = some h) := by
  refine ⟨?_, ?_, ?_⟩
  · intro h hh
    exact ⟨_, quotientBy_of_cluster? hg hh⟩
  · intro hnone
    rw [Option.eq_none_iff_forall_ne_some]
    intro h hh
    obtain ⟨-, hindices, -⟩ := cluster?_eq_some_iff.mp hh
    exact hindices ((indices_clusterMesh_eq_empty_iff hg).mpr hnone)
  · intro hpositive hkept hfinite
    have hindices : (g.clusterMesh cell).indices ≠ #[] := by
      rw [ne_eq, indices_clusterMesh_eq_empty_iff hg]
      obtain ⟨t, ht, hseparates⟩ := hkept
      exact fun hnone => hnone t ht hseparates
    obtain ⟨h, hderive⟩ := exists_derive_eq_ok g.primitive (fault?_clusterMesh hg hindices hfinite g.entity)
    exact ⟨h, cluster?_eq_some_iff.mpr ⟨hpositive, hindices, hderive⟩⟩

/-- Three triangles between four vertices, of which the first and the last lie in one cell. -/
def ledge : Geometry ℚ :=
  let m : Mesh ℚ := ⟨#[0, 0, 0, 4, 0, 0, 0, 4, 0, 0, 0, 1], #[0, 0, 1, 0, 0, 1, 0, 0, 1, 0, 0, 1],
    #[0, 1, 2, 0, 3, 1, 3, 2, 1]⟩
  { entity := 7, kind := .slab, primitive := .triangles, mesh := m, color := ⟨0.5, 0.5, 0.5⟩
    bounds := Box.ofPoints m.points
    hash := Digest.hash64 (m.contentBytes .triangles) }

/-- The three triangles pass the checks. -/
lemma ledge_accepted : ledge.Accepted := by
  refine ⟨7, .slab, .triangles, ledge.mesh, ⟨0.5, 0.5, 0.5⟩, ?_⟩
  have hfault : fault? 7 ledge.mesh = none := by
    simp [fault?_eq_none_iff, ledge, Mesh.vertexCount, Scalar.isFinite]
  rw [ofMesh, hfault]
  rfl

/-- Two corners of the ledge fall together on the finer grid. On the coarser one nothing is left of it. -/
theorem cluster?_quotient_ledge :
    ledge.Accepted ∧ ledge.separated 2 = [(0, 1, 2), (3, 2, 1)] ∧
    (∃ h image, ledge.cluster? 2 = some h ∧ ledge.QuotientBy h 2 image ∧ image 0 = image 3) ∧
    ledge.cluster? 8 = none := by
  have hseparated : ledge.separated 2 = [(0, 1, 2), (3, 2, 1)] := by decide +kernel
  have hvertices : ledge.separatedVertices 2 = [0, 1, 2, 3, 2, 1] := by
    rw [separatedVertices, hseparated]
    rfl
  refine ⟨ledge_accepted, hseparated, ?_, ?_⟩
  · obtain ⟨hquotient, -, hexists⟩ := cluster?_quotient ledge ledge_accepted 2
    obtain ⟨h, hh⟩ := hexists (by decide +kernel) (by decide +kernel) fun _ _ => rfl
    obtain ⟨image, himage⟩ := hquotient h hh
    have hkey : ledge.vertexKey 2 0 = ledge.vertexKey 2 3 := by decide +kernel
    refine ⟨h, image, hh, himage, (himage.image_eq_iff 0 ?_ 3 ?_).mpr hkey⟩
    · rw [hvertices]
      decide
    · rw [hvertices]
      decide
  · have hnone : ledge.separated 8 = [] := by decide +kernel
    apply (cluster?_quotient ledge ledge_accepted 8).2.1
    intro t ht hseparates
    exact List.filter_eq_nil_iff.mp hnone t ht (decide_eq_true hseparates)

end Geometry

end BuildingModel
