import BuildingModel.Proofs.Extract.Overflow
import BuildingModel.Proofs.Shape.Checked

/-!
# Products from their items

Which items of which representation make the shape of a product. An item that cannot be made counts for nothing,
unless making it overflows. The first representation that shows anything decides, and in it triangles before lines
(`LinkedModel.Decides`); what counts as shown is a mesh with a vertex, also if nothing is drawn between its
vertices. All meshes of the deciding items are put together before they are checked, so that they are accepted or
refused as a whole (`LinkedModel.placedShape_iff_of_goodItem`).
-/

namespace BuildingModel

open Exchange

namespace Mesh

variable {α : Type} {m n : Mesh α} {meshes : List (Mesh α)}

/-- Some meshes in one, in order. -/
def mergeAll (meshes : List (Mesh α)) : Mesh α := meshes.foldl merge empty

/-- Whole vertices, and whole triangles between them. There may be any number of normals. -/
def Whole (m : Mesh α) : Prop := ({ m with normals := m.positions } : Mesh α).WellFormed

/-- A well-formed mesh is whole. -/
lemma WellFormed.whole (h : m.WellFormed) : m.Whole := h.withBuffers rfl rfl

/-- Two whole meshes in one are whole. -/
lemma Whole.merge (hm : m.Whole) (hn : n.Whole) : (m.merge n).Whole := by
  have hmerged := WellFormed.merge hm hn
  rw [Mesh.merge] at hmerged
  rw [Whole, Mesh.merge]
  split
  · rename_i hempty
    rwa [if_pos (by exact hempty)] at hmerged
  · rename_i hempty
    rwa [if_neg (by exact hempty)] at hmerged

/-- Whether a mesh is whole depends on the number of its positions and on its indices. -/
lemma Whole.of_sizes (h : m.Whole) (hpositions : n.positions.size = m.positions.size)
    (hindices : n.indices = m.indices) : n.Whole := by
  obtain ⟨positions, normals, indices⟩ := n
  cases hindices
  exact WellFormed.withBuffers h hpositions hpositions

/-- Without vertices there are no triangles. -/
lemma Whole.indices_eq_empty (h : m.Whole) (hempty : m.isEmpty = true) : m.indices = #[] := by
  rw [isEmpty, Array.isEmpty_iff] at hempty
  rw [Array.eq_empty_iff_forall_not_mem]
  intro i hi
  have hlt := h.corners i hi
  simp [vertexCount, hempty] at hlt

/-- Meshes in one have the positions of both. -/
lemma positions_merge (m n : Mesh α) : (m.merge n).positions = m.positions ++ n.positions := by
  rw [merge]
  split
  · rename_i hempty
    rw [isEmpty, Array.isEmpty_iff] at hempty
    rw [hempty, Array.append_empty]
  · rfl

/-- Meshes in one have a triangle if one of them has. -/
lemma indices_merge_eq_empty_iff (hn : n.Whole) : (m.merge n).indices = #[] ↔ m.indices = #[] ∧ n.indices = #[] := by
  rw [merge]
  split
  · rename_i hempty
    simp [hn.indices_eq_empty hempty]
  · simp

/-- One more mesh is merged last. -/
lemma mergeAll_concat (meshes : List (Mesh α)) (n : Mesh α) : mergeAll (meshes ++ [n]) = (mergeAll meshes).merge n :=
  List.foldl_concat ..

/-- The positions of meshes in one are those of all of them. -/
lemma mem_positions_mergeAll {x : α} : x ∈ (mergeAll meshes).positions ↔ ∃ n ∈ meshes, x ∈ n.positions := by
  induction meshes using List.reverseRecOn with
  | nil => simp [mergeAll, empty]
  | append_singleton meshes n ih =>
    rw [mergeAll_concat, positions_merge, Array.mem_append, ih]
    simp only [List.mem_append, List.mem_singleton, or_and_right, exists_or, exists_eq_left]

/-- Meshes in one have no vertex exactly if none of them has. -/
lemma isEmpty_mergeAll_iff : (mergeAll meshes).isEmpty = true ↔ ∀ n ∈ meshes, n.isEmpty = true := by
  simp only [isEmpty, Array.isEmpty_iff, Array.eq_empty_iff_forall_not_mem, mem_positions_mergeAll, not_exists, not_and]
  exact ⟨fun h n hn x hx => h x n hn hx, fun h x n hn hx => h n hn x hx⟩

/-- Whole meshes in one are whole. -/
lemma whole_mergeAll (h : ∀ n ∈ meshes, n.Whole) : (mergeAll meshes).Whole := by
  rw [mergeAll]
  exact List.foldlRecOn (motive := Whole) _ _ wellFormed_empty fun merged hmerged n hn => hmerged.merge (h n hn)

/-- Meshes in one have no triangle exactly if none of them has. -/
lemma indices_mergeAll_eq_empty_iff (h : ∀ n ∈ meshes, n.Whole) :
    (mergeAll meshes).indices = #[] ↔ ∀ n ∈ meshes, n.indices = #[] := by
  induction meshes using List.reverseRecOn with
  | nil => simp [mergeAll, empty]
  | append_singleton meshes n ih =>
    rw [List.forall_mem_append, List.forall_mem_singleton] at h
    rw [mergeAll_concat, indices_merge_eq_empty_iff h.2, ih h.1, List.forall_mem_append, List.forall_mem_singleton]

end Mesh

/-- A mesh whose vertices and triangles are whole is accepted exactly if there is a triangle and all positions are
finite. -/
lemma Geometry.exists_ofMesh_iff_of_whole {entity : EntityId} {kind : Kind} {primitive : Primitive} {color : Color}
    {mesh : Mesh Float32} (hmesh : mesh.Whole) (hfits : mesh.vertexCount < UInt32.size) :
    (∃ g, ofMesh entity kind primitive mesh color = .ok g) ↔
      mesh.indices ≠ #[] ∧ ∀ x ∈ mesh.positions, x.isFinite = true := by
  rw [exists_ofMesh_iff, fault?_eq_none_iff_of_fits hfits]
  constructor
  · rintro ⟨-, hindices, -, -, -, hfinite⟩
    exact ⟨hindices, hfinite⟩
  · rintro ⟨hindices, hfinite⟩
    have hpositions : mesh.positions ≠ #[] := fun hempty =>
      hindices (hmesh.indices_eq_empty (Array.isEmpty_iff.mpr hempty))
    exact ⟨hpositions, hindices, Nat.mod_eq_zero_of_dvd hmesh.positions, Nat.mod_eq_zero_of_dvd hmesh.indices,
      hmesh.corners, hfinite⟩

namespace LinkedModel

variable {meshes : List (Mesh Float32)} {unit : Float}

/-- Bringing a mesh to metres keeps its triangles. -/
lemma indices_meshInMetres (mesh : Mesh Float32) (unit : Float) : (meshInMetres mesh unit).indices = mesh.indices := by
  rw [meshInMetres]
  split
  · rfl
  · rw [Mesh.scale]
    split <;> rfl

/-- Bringing a mesh to metres keeps the number of its positions. -/
lemma size_positions_meshInMetres (mesh : Mesh Float32) (unit : Float) :
    (meshInMetres mesh unit).positions.size = mesh.positions.size := by
  rw [meshInMetres]
  split
  · rfl
  · rw [Mesh.scale]
    split
    · rfl
    · exact Array.size_map

/-- Meshes may be brought to metres before or after they are put together. -/
lemma mem_positions_meshInMetres_mergeAll {x : Float32} :
    x ∈ (meshInMetres (Mesh.mergeAll meshes) unit).positions ↔
      ∃ n ∈ meshes, x ∈ (meshInMetres n unit).positions := by
  simp only [meshInMetres]
  split
  · exact Mesh.mem_positions_mergeAll
  · simp only [Mesh.scale]
    split
    · exact Mesh.mem_positions_mergeAll
    · simp only [Array.mem_map, Mesh.mem_positions_mergeAll]
      constructor
      · rintro ⟨y, ⟨n, hn, hy⟩, hx⟩
        exact ⟨n, hn, y, hy, hx⟩
      · rintro ⟨n, hn, y, hy, hx⟩
        exact ⟨y, ⟨n, hn, hy⟩, hx⟩

/-- Bringing a mesh to metres keeps it whole. -/
lemma whole_meshInMetres_iff {mesh : Mesh Float32} : (meshInMetres mesh unit).Whole ↔ mesh.Whole := by
  have hsize := size_positions_meshInMetres mesh unit
  have hindices := indices_meshInMetres mesh unit
  exact ⟨fun h => h.of_sizes hsize.symm hindices.symm, fun h => h.of_sizes hsize hindices⟩

/-- The check of an entity's mesh, brought to metres, accepts it. -/
def Accepts (unit : Float) (e : LinkedEntity) (rule : ExtractionRule) (p : Primitive) (mesh : Mesh Float32) : Prop :=
  ∃ g, Geometry.ofMesh e.id e.kind p (meshInMetres mesh unit) rule.color = .ok g

variable {e : LinkedEntity} {rule : ExtractionRule} {p : Primitive} {mesh : Mesh Float32}

/-- An accepted mesh is whole. -/
lemma Accepts.whole (h : Accepts unit e rule p mesh) : mesh.Whole := by
  obtain ⟨-, -, hpositions, hindices, hcorners, -⟩ :=
    Geometry.fault?_eq_none_iff.mp (Geometry.exists_ofMesh_iff.mp h)
  exact whole_meshInMetres_iff.mp
    ⟨Nat.dvd_of_mod_eq_zero hpositions, rfl, Nat.dvd_of_mod_eq_zero hindices, fun i hi =>
      Geometry.lt_of_lt_toUInt32 (hcorners i hi)⟩

/-- An accepted mesh has a triangle, and its positions are finite. -/
lemma Accepts.drawn (h : Accepts unit e rule p mesh) :
    mesh.indices ≠ #[] ∧ ∀ x ∈ (meshInMetres mesh unit).positions, x.isFinite = true := by
  obtain ⟨-, hindices, -, -, -, hfinite⟩ := Geometry.fault?_eq_none_iff.mp (Geometry.exists_ofMesh_iff.mp h)
  rw [indices_meshInMetres] at hindices
  exact ⟨hindices, hfinite⟩

/-- A mesh of whole vertices and triangles is accepted exactly if it has a triangle and its positions are finite. -/
lemma accepts_iff_of_whole (hmesh : mesh.Whole) (hfits : mesh.vertexCount < UInt32.size) :
    Accepts unit e rule p mesh ↔
      mesh.indices ≠ #[] ∧ ∀ x ∈ (meshInMetres mesh unit).positions, x.isFinite = true := by
  rw [← vertexCount_meshInMetres mesh unit] at hfits
  rw [Accepts, Geometry.exists_ofMesh_iff_of_whole (whole_meshInMetres_iff.mpr hmesh) hfits, indices_meshInMetres]

/-- Meshes in one are accepted exactly if one of them has a triangle and all their positions are finite. -/
lemma accepts_mergeAll_iff (hmeshes : ∀ n ∈ meshes, n.Whole)
    (hfits : (Mesh.mergeAll meshes).vertexCount < UInt32.size) :
    Accepts unit e rule p (Mesh.mergeAll meshes) ↔
      (∃ n ∈ meshes, n.indices ≠ #[]) ∧
        ∀ n ∈ meshes, ∀ x ∈ (meshInMetres n unit).positions, x.isFinite = true := by
  rw [accepts_iff_of_whole (Mesh.whole_mergeAll hmeshes) hfits, Ne, Mesh.indices_mergeAll_eq_empty_iff hmeshes]
  simp only [mem_positions_meshInMetres_mergeAll, not_forall, exists_prop, forall_exists_index, and_imp]
  exact and_congr_right fun _ => ⟨fun h n hn x hx => h x n hn hx, fun h x n hn hx => h n hn x hx⟩

end LinkedModel

/-- The mesh of an item, if it can be made and is drawn in a given way. -/
def MethodTable.made? (table : MethodTable) (m : LinkedModel) (p : Primitive) (item : LinkedEntity) :
    Option (Mesh Float32) :=
  ((table.process m item).toOption.filter (·.2 = p)).map (·.1)

/-- What the items have given to be drawn in one way. -/
def Gathered.mesh (g : Gathered) : Primitive → Mesh Float32
  | .triangles => g.triangles
  | .lines => g.lines

namespace LinkedModel

/-- The meshes of all items of a representation that can be made and are drawn in a given way. -/
def madeMeshes (m : LinkedModel) (table : MethodTable) (r : LinkedEntity) (p : Primitive) : List (Mesh Float32) :=
  (m.linkedList r 3).filterMap (table.made? m p)

variable {m : LinkedModel} {table : MethodTable} {e r item : LinkedEntity} {rule : ExtractionRule} {p : Primitive}
  {unit : Float} {mesh : Mesh Float32}

/-- A mesh is made of an item if the table makes it and it is drawn in the given way. -/
lemma made?_eq_some_iff : table.made? m p item = some mesh ↔ table.process m item = .ok (mesh, p) := by
  rw [MethodTable.made?]
  cases table.process m item with
  | error error => simp [Except.toOption]
  | ok made => simp [Except.toOption, Prod.ext_iff, and_comm]

/-- The meshes of a representation are those that are made of its items. -/
lemma mem_madeMeshes_iff :
    mesh ∈ m.madeMeshes table r p ↔ ∃ item ∈ m.linkedList r 3, table.process m item = .ok (mesh, p) := by
  simp only [madeMeshes, List.mem_filterMap, made?_eq_some_iff]

/-- The methods of this library make whole meshes. -/
lemma whole_of_mem_madeMeshes (htable : table.Known) : ∀ n ∈ m.madeMeshes table r p, n.Whole := by
  intro n hn
  obtain ⟨item, -, hitem⟩ := mem_madeMeshes_iff.mp hn
  exact (wellFormed_process htable hitem).whole

/-- An item that overflows ends the run. Any other one adds its mesh to those drawn in the same way. -/
lemma mesh_add_cases (m : LinkedModel) (table : MethodTable) (g : Gathered) (item : LinkedEntity) :
    (table.process m item = .error .overflow ∧ g.add table m item = .error .overflow) ∨
    (table.process m item ≠ .error .overflow ∧ ∃ g', g.add table m item = .ok g' ∧
      ∀ p, g'.mesh p = (table.made? m p item).elim (g.mesh p) (g.mesh p).merge) := by
  simp only [MethodTable.made?]
  rcases Gathered.add_cases table m g item with
    ⟨hmade, hadd⟩ | ⟨made, hmade, hadd⟩ | ⟨made, hmade, hadd⟩ | hover | ⟨error, hother, hmade, hadd⟩
  · rw [hmade]
    exact .inr ⟨by simp, g, hadd, fun p => rfl⟩
  · rw [hmade]
    refine .inr ⟨by simp, _, hadd, fun p => ?_⟩
    cases p <;> rfl
  · rw [hmade]
    refine .inr ⟨by simp, _, hadd, fun p => ?_⟩
    cases p <;> rfl
  · exact .inl hover
  · rw [hmade]
    refine .inr ⟨fun h => hother (Except.error.inj h), _, hadd, fun p => ?_⟩
    cases p <;> rfl

/-- No item of a representation overflows. -/
def CalmIn (m : LinkedModel) (table : MethodTable) (r : LinkedEntity) : Prop :=
  ∀ item ∈ m.linkedList r 3, table.process m item ≠ .error .overflow

/-- In a tame model no item overflows. -/
lemma Tame.calmIn (htable : table.Known) (htame : m.Tame) (r : LinkedEntity) : m.CalmIn table r :=
  fun _ hitem => htame.calm_process htable (mem_entityList_of_linkedList hitem)

/-- What a representation gives are the meshes that can be made of its items, unless one of them overflows. -/
lemma gather_cases (m : LinkedModel) (table : MethodTable) (r : LinkedEntity) (error : Option ShapeError) :
    (¬ m.CalmIn table r ∧ m.gather table r error = .error .overflow) ∨
    (m.CalmIn table r ∧ ∃ g, m.gather table r error = .ok g ∧
      ∀ p, g.mesh p = Mesh.mergeAll (m.madeMeshes table r p)) := by
  have hfold : ∀ (items : List LinkedEntity) (g : Gathered),
      (¬ (∀ item ∈ items, table.process m item ≠ .error .overflow) ∧
        items.foldlM (Gathered.add table m) g = .error .overflow) ∨
      ((∀ item ∈ items, table.process m item ≠ .error .overflow) ∧
        ∃ g', items.foldlM (Gathered.add table m) g = .ok g' ∧
          ∀ p, g'.mesh p = (items.filterMap (table.made? m p)).foldl Mesh.merge (g.mesh p)) := by
    intro items
    induction items with
    | nil => exact fun g => .inr ⟨by simp, g, rfl, fun p => rfl⟩
    | cons item items ih =>
      intro g
      rw [List.forall_mem_cons, List.foldlM_cons]
      rcases mesh_add_cases m table g item with ⟨hover, hadd⟩ | ⟨hcalm, next, hadd, hmesh⟩
      · rw [hadd]
        exact .inl ⟨fun h => h.1 hover, rfl⟩
      · rw [hadd]
        rcases ih next with ⟨hover, hrest⟩ | ⟨hrest, g', hg', hmeshes⟩
        · exact .inl ⟨fun h => hover h.2, hrest⟩
        · refine .inr ⟨⟨hcalm, hrest⟩, g', hg', fun p => ?_⟩
          rw [hmeshes, hmesh, List.filterMap_cons]
          cases table.made? m p item with
          | none => rfl
          | some mesh => rfl
  rcases hfold (m.linkedList r 3) ⟨Mesh.empty, Mesh.empty, error⟩ with hover | ⟨hcalm, g, hg, hmesh⟩
  · exact .inl hover
  · refine .inr ⟨hcalm, g, hg, fun p => ?_⟩
    rw [hmesh, madeMeshes, Mesh.mergeAll]
    cases p <;> rfl

/-- Some item of a representation gives a vertex to be drawn in a given way. -/
def Shows (m : LinkedModel) (table : MethodTable) (r : LinkedEntity) (p : Primitive) : Prop :=
  ∃ mesh ∈ m.madeMeshes table r p, mesh.isEmpty = false

/-- A representation shows something exactly if its meshes put together have a vertex. -/
lemma shows_iff : m.Shows table r p ↔ (Mesh.mergeAll (m.madeMeshes table r p)).isEmpty = false := by
  rw [← Bool.not_eq_true, Mesh.isEmpty_mergeAll_iff, Shows]
  simp only [not_forall, exists_prop, Bool.not_eq_true]

/-- The representation is the first one that shows anything, after those before it, and shows it in a given way:
lines only if there are no triangles. -/
structure Decides (m : LinkedModel) (table : MethodTable) (rs before : List LinkedEntity) (r : LinkedEntity)
    (p : Primitive) : Prop where
  first : ∃ after, rs = before ++ r :: after
  silent : ∀ r' ∈ before, ∀ p', ¬ m.Shows table r' p'
  shows : m.Shows table r p
  triangles : p = .lines → ¬ m.Shows table r .triangles

/-- The first representation decides if it shows something. -/
lemma Decides.head {rest : List LinkedEntity} (hshows : m.Shows table r p)
    (htriangles : p = .lines → ¬ m.Shows table r .triangles) : m.Decides table (r :: rest) [] r p :=
  ⟨⟨rest, rfl⟩, fun r' hr' => (by cases hr'), hshows, htriangles⟩

/-- A representation that shows nothing leaves the decision to those after it. -/
lemma Decides.cons {rs before : List LinkedEntity} {r₀ : LinkedEntity} (h : m.Decides table rs before r p)
    (hnone : ∀ p', ¬ m.Shows table r₀ p') : m.Decides table (r₀ :: rs) (r₀ :: before) r p := by
  obtain ⟨after, rfl⟩ := h.first
  exact ⟨⟨after, rfl⟩, List.forall_mem_cons.mpr ⟨hnone, h.silent⟩, h.shows, h.triangles⟩

/-- If something is shown, something decides. -/
lemma exists_decides {rs : List LinkedEntity} (hr : r ∈ rs) (hshows : m.Shows table r p) :
    ∃ before r' p', m.Decides table rs before r' p' := by
  induction rs with
  | nil => cases hr
  | cons r₀ rest ih =>
    by_cases htriangles : m.Shows table r₀ .triangles
    · exact ⟨[], r₀, .triangles, Decides.head htriangles fun h => by cases h⟩
    by_cases hlines : m.Shows table r₀ .lines
    · exact ⟨[], r₀, .lines, Decides.head hlines fun _ => htriangles⟩
    have hnone : ∀ p', ¬ m.Shows table r₀ p' := by
      intro p'
      cases p' with
      | triangles => exact htriangles
      | lines => exact hlines
    rcases List.mem_cons.mp hr with rfl | hr
    · exact absurd hshows (hnone p)
    · obtain ⟨before, r', p', h⟩ := ih hr
      exact ⟨r₀ :: before, r', p', h.cons hnone⟩

/-- A representation with an item that overflows ends the run. -/
lemma representedMesh_of_not_calm (hover : ¬ m.CalmIn table r) (product : EntityId) (rest : List LinkedEntity)
    (error : Option ShapeError) : m.representedMesh table product (r :: rest) error = .error .overflow := by
  rcases gather_cases m table r error with ⟨-, hgather⟩ | ⟨hcalm, -⟩
  · rw [representedMesh, hgather]
    rfl
  · exact absurd hcalm hover

/-- A representation without such an item decides, or leaves the decision to those after it. -/
lemma representedMesh_of_calm (hcalm : m.CalmIn table r) (product : EntityId) (rest : List LinkedEntity)
    (error : Option ShapeError) :
    (m.Shows table r .triangles → m.representedMesh table product (r :: rest) error =
      .ok (Mesh.mergeAll (m.madeMeshes table r .triangles), .triangles)) ∧
    (¬ m.Shows table r .triangles → m.Shows table r .lines → m.representedMesh table product (r :: rest) error =
      .ok (Mesh.mergeAll (m.madeMeshes table r .lines), .lines)) ∧
    (¬ m.Shows table r .triangles → ¬ m.Shows table r .lines → ∃ error',
      m.representedMesh table product (r :: rest) error = m.representedMesh table product rest error') := by
  rcases gather_cases m table r error with ⟨hover, -⟩ | ⟨-, g, hgather, hmesh⟩
  · exact absurd hcalm hover
  · rw [shows_iff, shows_iff, ← hmesh, ← hmesh, representedMesh, hgather]
    simp only [Gathered.mesh, bind, Except.bind]
    refine ⟨fun ht => ?_, fun ht hl => ?_, fun ht hl => ⟨g.error, ?_⟩⟩
    · simp [ht]
    · simp [ht, hl]
    · simp [ht, hl]

/-- The mesh of a product is made of the items that decide, if none up to them overflows. -/
lemma Decides.representedMesh {rs before : List LinkedEntity} (h : m.Decides table rs before r p)
    (hcalm : ∀ r' ∈ before ++ [r], m.CalmIn table r') (product : EntityId) (error : Option ShapeError) :
    m.representedMesh table product rs error = .ok (Mesh.mergeAll (m.madeMeshes table r p), p) := by
  obtain ⟨⟨after, rfl⟩, hsilent, hshows, hlast⟩ := h
  induction before generalizing error with
  | nil =>
    have hcalm := hcalm r (List.mem_singleton_self r)
    cases p with
    | triangles => exact (representedMesh_of_calm hcalm product after error).1 hshows
    | lines => exact (representedMesh_of_calm hcalm product after error).2.1 (hlast rfl) hshows
  | cons r₀ before ih =>
    rw [List.forall_mem_cons] at hsilent
    rw [List.cons_append, List.forall_mem_cons] at hcalm
    obtain ⟨error', hnext⟩ := (representedMesh_of_calm hcalm.1 product (before ++ r :: after) error).2.2
      (hsilent.1 _) (hsilent.1 _)
    rw [List.cons_append, hnext]
    exact ih hcalm.2 error' hsilent.2

/-- If an item up to those that decide overflows, the product has no mesh. -/
lemma Decides.representedMesh_of_overflow {rs before : List LinkedEntity} (h : m.Decides table rs before r p)
    (hover : ¬ ∀ r' ∈ before ++ [r], m.CalmIn table r') (product : EntityId) (error : Option ShapeError) :
    m.representedMesh table product rs error = .error .overflow := by
  obtain ⟨⟨after, rfl⟩, hsilent, -, -⟩ := h
  induction before generalizing error with
  | nil =>
    rw [List.nil_append, List.forall_mem_singleton] at hover
    exact representedMesh_of_not_calm hover product after error
  | cons r₀ before ih =>
    rw [List.forall_mem_cons] at hsilent
    rw [List.cons_append, List.forall_mem_cons] at hover
    rw [List.cons_append]
    by_cases hcalm : m.CalmIn table r₀
    · obtain ⟨error', hnext⟩ := (representedMesh_of_calm hcalm product (before ++ r :: after) error).2.2
        (hsilent.1 _) (hsilent.1 _)
      rw [hnext]
      exact ih (fun hrest => hover ⟨hcalm, hrest⟩) error' hsilent.2
    · exact representedMesh_of_not_calm hcalm product _ error

/-- A representation among those of a shape is one of its list. -/
lemma mem_representations_iff {shape : LinkedEntity} :
    r ∈ m.representations shape ↔ r ∈ m.linkedList shape 2 ∧ r.kind = .shapeRepresentation := by
  simp only [representations, List.mem_append, List.mem_filter, decide_eq_true_eq]
  constructor
  · rintro (⟨hr, -⟩ | ⟨hr, -⟩) <;> exact hr
  · intro hr
    cases hbody : isBody r with
    | false => exact .inr ⟨hr, rfl⟩
    | true => exact .inl ⟨hr, rfl⟩

/-- A product can be placed and has a representation with an item whose mesh is accepted on its own. -/
structure GoodItem (m : LinkedModel) (table : MethodTable) (unit : Float) (e : LinkedEntity) (rule : ExtractionRule)
    (shape r item : LinkedEntity) (mesh : Mesh Float32) (p : Primitive) : Prop where
  strategy : rule.strategy = .product
  placed : ∃ t, m.productPlacement e = .ok t
  shapeOf : m.follow? e 6 = some shape
  shapeKind : shape.kind = .productDefinitionShape
  listed : r ∈ m.linkedList shape 2
  kind : r.kind = .shapeRepresentation
  holds : item ∈ m.linkedList r 3
  made : table.process m item = .ok (mesh, p)
  accepted : Accepts unit e rule p mesh

variable {shape : LinkedEntity}

/-- An accepted mesh has a vertex. -/
lemma Accepts.isEmpty (h : Accepts unit e rule p mesh) : mesh.isEmpty = false := by
  rw [← Bool.not_eq_true]
  exact fun hempty => h.drawn.1 (h.whole.indices_eq_empty hempty)

/-- The mesh of the good item is one of those of its representation. -/
lemma GoodItem.mem_madeMeshes (h : m.GoodItem table unit e rule shape r item mesh p) : mesh ∈ m.madeMeshes table r p :=
  mem_madeMeshes_iff.mpr ⟨item, h.holds, h.made⟩

/-- An entity has a shape exactly if its mesh is accepted. -/
lemma exists_placedShape_iff {t : Mat4 Float} (hplaced : m.placedMesh table rule.strategy e = .ok ((mesh, p), t)) :
    (∃ s, m.placedShape table unit e rule = .ok s) ↔ Accepts unit e rule p mesh := by
  rw [placedShape, hplaced, Accepts]
  constructor
  · rintro ⟨s, hs⟩
    obtain ⟨_, hmade, hs⟩ := bind_eq_ok_iff.mp hs
    cases hmade
    obtain ⟨g, hg, -⟩ := bind_eq_ok_iff.mp hs
    exact ⟨g, hg⟩
  · rintro ⟨g, hg⟩
    exact ⟨_, bind_eq_ok_iff.mpr ⟨((mesh, p), t), rfl, bind_eq_ok_iff.mpr ⟨g, hg, rfl⟩⟩⟩

/-- The mesh of a product with a good item is what its representations give. -/
lemma GoodItem.productMesh_eq (h : m.GoodItem table unit e rule shape r item mesh p) :
    m.productMesh table e = m.representedMesh table e.id (m.representations shape) none := by
  rw [productMesh, required, h.shapeOf]
  simp only [bind, Except.bind, LinkedEntity.expectKind, h.shapeKind]
  rfl

/-- If nothing overflows up to the items that decide, the product has a shape exactly if their meshes are accepted
together. -/
lemma GoodItem.exists_placedShape_iff (h : m.GoodItem table unit e rule shape r item mesh p)
    {before : List LinkedEntity} {r' : LinkedEntity} {p' : Primitive}
    (hdecides : m.Decides table (m.representations shape) before r' p')
    (hcalm : ∀ r₀ ∈ before ++ [r'], m.CalmIn table r₀) :
    (∃ s, m.placedShape table unit e rule = .ok s) ↔
      Accepts unit e rule p' (Mesh.mergeAll (m.madeMeshes table r' p')) := by
  obtain ⟨t, ht⟩ := h.placed
  have hproduct := h.productMesh_eq.trans (hdecides.representedMesh hcalm e.id none)
  have hplaced : m.placedMesh table rule.strategy e = .ok ((Mesh.mergeAll (m.madeMeshes table r' p'), p'), t) := by
    rw [h.strategy, placedMesh]
    exact bind_eq_ok_iff.mpr ⟨t, ht, bind_eq_ok_iff.mpr ⟨_, hproduct, rfl⟩⟩
  exact LinkedModel.exists_placedShape_iff hplaced

/-- If something overflows up to the items that decide, so does the product. -/
lemma GoodItem.placedShape_of_overflow (h : m.GoodItem table unit e rule shape r item mesh p)
    {before : List LinkedEntity} {r' : LinkedEntity} {p' : Primitive}
    (hdecides : m.Decides table (m.representations shape) before r' p')
    (hover : ¬ ∀ r₀ ∈ before ++ [r'], m.CalmIn table r₀) : m.placedShape table unit e rule = .error .overflow := by
  obtain ⟨t, ht⟩ := h.placed
  have hproduct := h.productMesh_eq.trans (hdecides.representedMesh_of_overflow hover e.id none)
  have hplaced : m.placedMesh table rule.strategy e = .error .overflow := by
    rw [h.strategy, placedMesh]
    simp only [bind, Except.bind, ht, hproduct]
  rw [placedShape, hplaced]
  rfl

/-- If some item of a product gives a mesh that is accepted on its own, the items of one of its representations
decide. If an item of this representation or of one before it overflows, so does the product; by the methods of this
library no item does, unless some curve names the least number. Otherwise the product has a shape exactly if the
meshes of the deciding items are accepted together. If these have fewer than `2 ^ 32` vertices, they are if each of
them is; and if their vertices and triangles are whole, as all methods of this library make them, the product has a
shape exactly if one of the meshes has a triangle and all positions are finite. -/
theorem placedShape_iff_of_goodItem (h : m.GoodItem table unit e rule shape r item mesh p) :
    (∃ before r' p', m.Decides table (m.representations shape) before r' p') ∧
    ∀ before r' p', m.Decides table (m.representations shape) before r' p' →
      ((¬ ∀ r₀ ∈ before ++ [r'], m.CalmIn table r₀) → m.placedShape table unit e rule = .error .overflow) ∧
      (table.Known → m.Tame → ∀ r₀ ∈ before ++ [r'], m.CalmIn table r₀) ∧
      (table.Known → ∀ n ∈ m.madeMeshes table r' p', n.Whole) ∧
      ((∀ r₀ ∈ before ++ [r'], m.CalmIn table r₀) →
        ((∃ s, m.placedShape table unit e rule = .ok s) ↔
          Accepts unit e rule p' (Mesh.mergeAll (m.madeMeshes table r' p'))) ∧
        ((Mesh.mergeAll (m.madeMeshes table r' p')).vertexCount < UInt32.size →
          ((∀ n ∈ m.madeMeshes table r' p', Accepts unit e rule p' n) →
            ∃ s, m.placedShape table unit e rule = .ok s) ∧
          ((∀ n ∈ m.madeMeshes table r' p', n.Whole) →
            ((∃ s, m.placedShape table unit e rule = .ok s) ↔
              (∃ n ∈ m.madeMeshes table r' p', n.indices ≠ #[]) ∧
              ∀ n ∈ m.madeMeshes table r' p', ∀ x ∈ (meshInMetres n unit).positions, x.isFinite = true)))) := by
  have hshows : m.Shows table r p := ⟨mesh, h.mem_madeMeshes, h.accepted.isEmpty⟩
  refine ⟨exists_decides (mem_representations_iff.mpr ⟨h.listed, h.kind⟩) hshows, ?_⟩
  intro before r' p' hdecides
  refine ⟨h.placedShape_of_overflow hdecides, fun htable htame r₀ _ => htame.calmIn htable r₀,
    whole_of_mem_madeMeshes, ?_⟩
  intro hcalm
  have hshape := h.exists_placedShape_iff hdecides hcalm
  refine ⟨hshape, fun hfits => ⟨?_, ?_⟩⟩
  · intro haccepts
    rw [hshape, accepts_mergeAll_iff (fun n hn => (haccepts n hn).whole) hfits]
    obtain ⟨n, hn, -⟩ := hdecides.shows
    exact ⟨⟨n, hn, (haccepts n hn).drawn.1⟩, fun n hn => (haccepts n hn).drawn.2⟩
  · intro hwhole
    rw [hshape, accepts_mergeAll_iff hwhole hfits]

/-- A first representation with a vertex of triangles decides. -/
lemma decides_triangles {rs rest : List LinkedEntity} (hrs : rs = r :: rest)
    (hmesh : mesh ∈ m.madeMeshes table r .triangles) (hvertex : mesh.isEmpty = false) :
    m.Decides table rs [] r .triangles := by
  rw [hrs]
  exact .head ⟨mesh, hmesh, hvertex⟩ fun h => by cases h

/-- In metres, and by the methods of this library, a mesh with a triangle and finite positions is a good one. -/
lemma goodItem_of_process (strategy : rule.strategy = .product) (placed : ∃ t, m.productPlacement e = .ok t)
    (shapeOf : m.follow? e 6 = some shape) (shapeKind : shape.kind = .productDefinitionShape)
    (listed : r ∈ m.linkedList shape 2) (kind : r.kind = .shapeRepresentation) (holds : item ∈ m.linkedList r 3)
    (made : MethodTable.standard.process m item = .ok (mesh, p)) (hdrawn : mesh.indices.isEmpty = false)
    (hfits : mesh.vertexCount < UInt32.size)
    (hfinite : mesh.positions.toList.all Float32.isFinite = true) :
    m.GoodItem .standard 1 e rule shape r item mesh p := by
  refine ⟨strategy, placed, shapeOf, shapeKind, listed, kind, holds, made, ?_⟩
  have hunit : meshInMetres mesh 1 = mesh := if_pos (by decide +kernel)
  rw [accepts_iff_of_whole (wellFormed_process MethodTable.known_standard made).whole hfits, hunit]
  refine ⟨fun hempty => ?_, fun x hx => List.all_eq_true.mp hfinite x (Array.mem_toList_iff.mpr hx)⟩
  rw [hempty] at hdrawn
  cases hdrawn

end LinkedModel

/-- Two walls that are shown by a triangle. The body of the first wall is another set of triangles, which is empty;
the body of the second one holds a set with a triangle between points that do not exist. -/
def wallPair : ExchangeFile :=
  ⟨{}, [⟨1, .cartesianPointList3D, [.list [.list [.real 0, .real 0, .real 0]]]⟩,
      ⟨2, .triangulatedFaceSet, [.ref 1, .omitted, .omitted, .list [.list [.integer 1, .integer 1, .integer 1]]]⟩,
      ⟨3, .triangulatedFaceSet, [.ref 1, .omitted, .omitted, .list []]⟩,
      ⟨4, .triangulatedFaceSet, [.ref 1, .omitted, .omitted, .list [.list [.integer 1, .integer 2, .integer 3]]]⟩,
      ⟨5, .shapeRepresentation, [.omitted, .text "Body", .omitted, .list [.ref 3]]⟩,
      ⟨6, .shapeRepresentation, [.omitted, .text "Facetation", .omitted, .list [.ref 2]]⟩,
      ⟨7, .shapeRepresentation, [.omitted, .text "Body", .omitted, .list [.ref 4, .ref 2]]⟩,
      ⟨8, .productDefinitionShape, [.omitted, .omitted, .list [.ref 5, .ref 6]]⟩,
      ⟨9, .productDefinitionShape, [.omitted, .omitted, .list [.ref 7]]⟩,
      ⟨10, .wall, [.omitted, .omitted, .omitted, .omitted, .omitted, .omitted, .ref 8]⟩,
      ⟨11, .wall, [.omitted, .omitted, .omitted, .omitted, .omitted, .omitted, .ref 9]⟩].foldl
        EntityTable.push {}, .empty 50⟩

/-- The entities of the linked file. -/
lemma wallPair_entities : wallPair.link.entities =
    #[⟨1, .cartesianPointList3D, [.list [.list [.real 0, .real 0, .real 0]]]⟩,
      ⟨2, .triangulatedFaceSet, [.link 0, .omitted, .omitted, .list [.list [.integer 1, .integer 1, .integer 1]]]⟩,
      ⟨3, .triangulatedFaceSet, [.link 0, .omitted, .omitted, .list []]⟩,
      ⟨4, .triangulatedFaceSet, [.link 0, .omitted, .omitted, .list [.list [.integer 1, .integer 2, .integer 3]]]⟩,
      ⟨5, .shapeRepresentation, [.omitted, .text "Body", .omitted, .list [.link 2]]⟩,
      ⟨6, .shapeRepresentation, [.omitted, .text "Facetation", .omitted, .list [.link 1]]⟩,
      ⟨7, .shapeRepresentation, [.omitted, .text "Body", .omitted, .list [.link 3, .link 1]]⟩,
      ⟨8, .productDefinitionShape, [.omitted, .omitted, .list [.link 4, .link 5]]⟩,
      ⟨9, .productDefinitionShape, [.omitted, .omitted, .list [.link 6]]⟩,
      ⟨10, .wall, [.omitted, .omitted, .omitted, .omitted, .omitted, .omitted, .link 7]⟩,
      ⟨11, .wall, [.omitted, .omitted, .omitted, .omitted, .omitted, .omitted, .link 8]⟩] := by
  simp [wallPair, ExchangeFile.link, EntityTable.push, Entity.link, Value.linkAll, Value.link,
    EntityTable.position?, Std.HashMap.getElem_insert]

open LinkedModel

/-- There is no curve in it. -/
lemma wallPair_tame : wallPair.link.Tame := by
  simp [Tame, entityList, wallPair_entities, LinkedEntity.NamesLeast]

/-- A wall with a good item and one that fails has a shape. -/
theorem exists_placedShape_wallPair : ∃ e shape r item mesh, wallPair.link.get? 10 = some e ∧
    wallPair.link.GoodItem .standard 1 e ⟨⟨0, 0, 0⟩, .product⟩ shape r item mesh .triangles ∧
    (∃ bad ∈ wallPair.link.linkedList r 3, ∃ error, MethodTable.standard.process wallPair.link bad = .error error) ∧
    ∃ s, wallPair.link.placedShape .standard 1 e ⟨⟨0, 0, 0⟩, .product⟩ = .ok s := by
  have hentities := wallPair_entities
  have htame := wallPair_tame
  generalize wallPair.link = m at hentities htame
  obtain ⟨e, shape, r, item, mesh, bad, error, he, hgood, hitems, hbad, hreps, hmade, hfits⟩ :
      ∃ e shape r item mesh bad error,
      m.get? 10 = some e ∧ m.GoodItem .standard 1 e ⟨⟨0, 0, 0⟩, .product⟩ shape r item mesh .triangles ∧
      m.linkedList r 3 = [bad, item] ∧ MethodTable.standard.process m bad = .error error ∧
      m.representations shape = [r] ∧ m.madeMeshes .standard r .triangles = [mesh] ∧
      (Mesh.mergeAll [mesh]).vertexCount < UInt32.size := by
    obtain ⟨header, entities, index, status, consumed, log⟩ := m
    cases hentities
    exact ⟨_, _, _, _, _, _, _, rfl, goodItem_of_process rfl ⟨_, rfl⟩ rfl rfl (.head _) rfl (.tail _ (.head _)) rfl
      (by decide +kernel) (by decide +kernel) (by decide +kernel), rfl, rfl, rfl, rfl, by decide +kernel⟩
  have hdecides := decides_triangles hreps hgood.mem_madeMeshes hgood.accepted.isEmpty
  obtain ⟨-, hall⟩ := placedShape_iff_of_goodItem hgood
  obtain ⟨-, hcalm, -, hdecided⟩ := hall [] r .triangles hdecides
  rw [← hmade] at hfits
  obtain ⟨hsound, -⟩ := (hdecided (hcalm MethodTable.known_standard htame)).2 hfits
  refine ⟨e, shape, r, item, mesh, he, hgood, ⟨bad, hitems ▸ .head _, error, hbad⟩, hsound ?_⟩
  rw [hmade, List.forall_mem_singleton]
  exact hgood.accepted

/-- The first wall is sound. -/
lemma wallPair_status : wallPair.link.statusOf 9 = .ok := by
  rw [ExchangeFile.link_statusOf, LinkedModel.references, wallPair_entities]
  cbv

/-- The first wall is lost: its body decides, since it has a vertex. -/
theorem not_exists_placedShape_wallPair : ∃ e shape r item mesh, wallPair.link.get? 9 = some e ∧
    wallPair.link.statusOf 9 = .ok ∧
    wallPair.link.GoodItem .standard 1 e ⟨⟨0, 0, 0⟩, .product⟩ shape r item mesh .triangles ∧
    ¬ ∃ s, wallPair.link.placedShape .standard 1 e ⟨⟨0, 0, 0⟩, .product⟩ = .ok s := by
  have hstatus := wallPair_status
  have hentities := wallPair_entities
  have htame := wallPair_tame
  generalize wallPair.link = m at hstatus hentities htame
  obtain ⟨e, shape, r, item, mesh, body, rest, hollow, he, hgood, hreps, hmade, hvertex, hindices⟩ :
      ∃ e shape r item mesh body rest hollow, m.get? 9 = some e ∧
      m.GoodItem .standard 1 e ⟨⟨0, 0, 0⟩, .product⟩ shape r item mesh .triangles ∧
      m.representations shape = body :: rest ∧ m.madeMeshes .standard body .triangles = [hollow] ∧
      hollow.isEmpty = false ∧ hollow.indices = #[] := by
    obtain ⟨header, entities, index, status, consumed, log⟩ := m
    cases hentities
    exact ⟨_, _, _, _, _, _, _, _, rfl, goodItem_of_process rfl ⟨_, rfl⟩ rfl rfl (.tail _ (.head _)) rfl (.head _) rfl
      (by decide +kernel) (by decide +kernel) (by decide +kernel), rfl, rfl, rfl, rfl⟩
  have hdecides := decides_triangles hreps (by rw [hmade]; exact .head _) hvertex
  refine ⟨e, shape, r, item, mesh, he, hstatus, hgood, ?_⟩
  rw [hgood.exists_placedShape_iff hdecides fun r₀ _ => htame.calmIn MethodTable.known_standard r₀]
  intro haccepts
  apply haccepts.drawn.1
  rw [Mesh.indices_mergeAll_eq_empty_iff (whole_of_mem_madeMeshes MethodTable.known_standard), hmade,
    List.forall_mem_singleton]
  exact hindices

end BuildingModel
