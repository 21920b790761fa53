import BuildingModel.Proofs.Number.Comparison
import BuildingModel.Proofs.View.Accounting

/-!
# Detail and distance

The variants of a geometry stand in the order of their levels, and none has more vertices than the one before
it. What is drawn for a level is the last variant that is not simpler than the level. A greater distance asks
for the same level or a simpler one, whatever the thresholds are, so the number of vertices that are drawn never
grows with distance (`DetailSet.build_graded`).
-/

namespace BuildingModel

namespace DetailSet

variable {α : Type}

/-! ## Kept variants -/

/-- No variant has more vertices than one before it. -/
def Falling (s : DetailSet α) : Prop :=
  s.variants.Pairwise fun v w => w.2.vertexCount ≤ v.2.vertexCount

/-- A variant that is kept comes last. -/
lemma variants_append (s : DetailSet α) (v : DetailLevel × Geometry α) :
    ({ s with coarser := s.coarser ++ [v] } : DetailSet α).variants = s.variants ++ [v] := rfl

/-- Its vertices are counted last. -/
lemma lastVertexCount_append (s : DetailSet α) (v : DetailLevel × Geometry α) :
    lastVertexCount { s with coarser := s.coarser ++ [v] } = v.2.vertexCount := by
  simp [lastVertexCount]

/-- No variant has fewer vertices than the last one. -/
lemma Falling.last_le {s : DetailSet α} (hs : s.Falling) {v : DetailLevel × Geometry α}
    (hv : v ∈ s.variants) : s.lastVertexCount ≤ v.2.vertexCount := by
  obtain ⟨high, coarser⟩ := s
  rcases List.eq_nil_or_concat' coarser with rfl | ⟨before, last, rfl⟩
  · cases List.mem_singleton.mp hv
    exact Nat.le_refl _
  · rw [lastVertexCount_append ⟨high, before⟩]
    rw [Falling, variants_append ⟨high, before⟩, List.pairwise_append] at hs
    rw [variants_append ⟨high, before⟩, List.mem_append] at hv
    rcases hv with hv | hv
    · exact hs.2.2 v hv last (List.mem_singleton.mpr rfl)
    · cases List.mem_singleton.mp hv
      exact Nat.le_refl _

/-- A variant is kept only if it has no more vertices than the one before. -/
lemma le_of_keeps {level : DetailLevel} {vertices previous : Nat}
    (h : keeps level vertices previous = true) : vertices ≤ previous := by
  cases level with
  | minimal => exact of_decide_eq_true h
  | high => exact Nat.le_of_lt (of_decide_eq_true h)
  | medium => exact Nat.le_of_lt (of_decide_eq_true h)
  | low => exact Nat.le_of_lt (of_decide_eq_true h)

/-- Considering a candidate keeps the variants falling. -/
lemma Falling.consider {s : DetailSet α} (hs : s.Falling)
    (candidate : DetailLevel × Option (Geometry α)) : (s.consider candidate).Falling := by
  obtain ⟨level, _ | g⟩ := candidate
  · exact hs
  · rw [DetailSet.consider]
    split
    · rename_i hkeeps
      rw [Falling, variants_append, List.pairwise_append]
      refine ⟨hs, List.pairwise_singleton _ _, ?_⟩
      intro v hv w hw
      cases List.mem_singleton.mp hw
      exact (le_of_keeps hkeeps).trans (hs.last_le hv)
    · exact hs

/-- So does considering all of them. -/
lemma Falling.foldl_consider {s : DetailSet α} (hs : s.Falling)
    (candidates : List (DetailLevel × Option (Geometry α))) :
    (candidates.foldl DetailSet.consider s).Falling := by
  induction candidates generalizing s with
  | nil => exact hs
  | cons candidate candidates ih => exact ih (hs.consider candidate)

/-! ## Selected variants -/

/-- What is drawn for a level comes last among the variants that are not simpler than the level. -/
lemma eq_select_or_rel {s : DetailSet α} {R : DetailLevel × Geometry α → DetailLevel × Geometry α → Prop}
    (hs : s.variants.Pairwise R) {level : DetailLevel} {w : DetailLevel × Geometry α}
    (hw : w ∈ s.variants) (hle : w.1.rank ≤ level.rank) :
    w = s.select level ∨ R w (s.select level) := by
  rw [select]
  generalize hfound : s.variants.reverse.find? _ = found
  cases found with
  | none =>
    have hnone := List.find?_eq_none.mp hfound w (List.mem_reverse.mpr hw)
    exact absurd (decide_eq_true hle) hnone
  | some v =>
    obtain ⟨-, after, before, hsplit, hafter⟩ := List.find?_eq_some_iff_append.mp hfound
    rw [Option.getD_some]
    have hmem : w ∈ after ++ v :: before := hsplit ▸ List.mem_reverse.mpr hw
    rcases List.mem_append.mp hmem with hmem | hmem
    · exact absurd (hafter w hmem) (by simpa using hle)
    · rcases List.mem_cons.mp hmem with rfl | hmem
      · exact .inl rfl
      · rw [← List.pairwise_reverse, hsplit, List.pairwise_append, List.pairwise_cons] at hs
        exact .inr (hs.2.1.1 w hmem)

/-- The variant is kept and not simpler than the level, and no such variant is simpler than it. -/
structure IsCoarsest (s : DetailSet α) (level : DetailLevel) (v : DetailLevel × Geometry α) : Prop where
  kept : v ∈ s.variants
  detailed : v.1.rank ≤ level.rank
  last : ∀ w ∈ s.variants, w.1.rank ≤ level.rank → w.1.rank ≤ v.1.rank

/-- What is drawn is not simpler than the level. -/
lemma rank_select_le (s : DetailSet α) (level : DetailLevel) : (s.select level).1.rank ≤ level.rank := by
  rw [select]
  generalize hfound : s.variants.reverse.find? _ = found
  cases found with
  | none => exact Nat.zero_le _
  | some v =>
    have hle := List.find?_some hfound
    exact of_decide_eq_true hle

/-- What is drawn is the simplest variant that is not simpler than the level. -/
lemma isCoarsest_select {s : DetailSet α} (hs : s.levels.Pairwise (·.rank < ·.rank))
    (level : DetailLevel) : s.IsCoarsest level (s.select level) := by
  refine ⟨s.select_mem level, s.rank_select_le level, ?_⟩
  intro w hw hle
  rw [levels, List.pairwise_map] at hs
  rcases eq_select_or_rel hs hw hle with heq | hlt
  · rw [heq]
  · exact Nat.le_of_lt hlt

/-- For a simpler level nothing with more vertices is drawn. -/
lemma Falling.vertexCount_select_le {s : DetailSet α} (hs : s.Falling) {l₁ l₂ : DetailLevel}
    (hle : l₁.rank ≤ l₂.rank) :
    (s.select l₂).2.vertexCount ≤ (s.select l₁).2.vertexCount := by
  have hrank : (s.select l₁).1.rank ≤ l₂.rank := (s.rank_select_le l₁).trans hle
  rcases eq_select_or_rel hs (s.select_mem l₁) hrank with heq | hle
  · rw [← heq]
  · exact hle

end DetailSet

/-! ## Distances -/

/-- A greater distance asks for the same level or a simpler one. The thresholds need not increase, and need
not even be numbers. -/
lemma Thresholds.rank_select_mono (t : Thresholds Float32) {near far : Float32} (h : near ≤ far) :
    (t.select near).rank ≤ (t.select far).rank := by
  have hlt : ∀ {bound : Float32}, far < bound → near < bound := Single.lt_of_le_of_lt h
  unfold select
  split
  · exact Nat.zero_le _
  · rename_i hmedium
    rw [if_neg fun hfar => hmedium (hlt hfar)]
    split
    · split
      · exact Nat.le_refl _
      · split
        · decide
        · decide
    · rename_i hlow
      rw [if_neg fun hfar => hlow (hlt hfar)]
      split
      · split
        · exact Nat.le_refl _
        · decide
      · rename_i hminimal
        rw [if_neg fun hfar => hminimal (hlt hfar)]

/-- Detail never grows with distance. The variants of a geometry begin with the geometry itself, their levels
rise and their numbers of vertices fall; what is drawn for a level is the simplest variant that is not simpler
than the level; and what is drawn at a distance has at most as many vertices as what is drawn nearer by. -/
theorem DetailSet.build_graded (high : Geometry Float32) :
    (build high).variants.head? = some (.high, high) ∧
      (build high).levels.Pairwise (·.rank < ·.rank) ∧
      (build high).Falling ∧
      (∀ level, (build high).IsCoarsest level ((build high).select level)) ∧
      ∀ (t : Thresholds Float32) {near far : Float32}, near ≤ far →
        ((build high).select (t.select far)).2.vertexCount ≤
          ((build high).select (t.select near)).2.vertexCount := by
  have hlevels : (build high).levels.Pairwise (·.rank < ·.rank) :=
    List.Pairwise.sublist (levels_build_sublist high) (by decide)
  have hstart : Falling ⟨high, []⟩ := List.pairwise_singleton _ _
  have hfalling : (build high).Falling := hstart.foldl_consider (candidates high)
  refine ⟨?_, hlevels, hfalling, isCoarsest_select hlevels, ?_⟩
  · rw [variants, Scene.high_build, List.head?_cons]
  · intro t near far h
    exact hfalling.vertexCount_select_le (t.rank_select_mono h)

/-- Nine vertices at one point, for which only the wireframe is simpler. -/
def DetailSet.heap : Geometry Float32 where
  entity := 1
  kind := .wall
  primitive := .triangles
  mesh := ⟨Array.replicate 27 0, Array.replicate 27 0, #[0, 1, 2]⟩
  color := ⟨0, 0, 0⟩
  bounds := ⟨0, 0⟩
  hash := 0

/-- Far away the heap is drawn with eight vertices, and near by with nine, even if a threshold is no number. -/
theorem DetailSet.build_graded_heap :
    (1.5 : Float32) ≤ 60 ∧
      ((build heap).select (Thresholds.select ⟨10, 0 / 0, 5⟩ (60 : Float32))).2.vertexCount = 8 ∧
      ((build heap).select (Thresholds.select ⟨10, 0 / 0, 5⟩ (1.5 : Float32))).2.vertexCount = 9 ∧
      ((build heap).select (Thresholds.select ⟨10, 0 / 0, 5⟩ (60 : Float32))).2.vertexCount ≤
        ((build heap).select (Thresholds.select ⟨10, 0 / 0, 5⟩ (1.5 : Float32))).2.vertexCount := by
  have h : (1.5 : Float32) ≤ 60 := by decide +kernel
  exact ⟨h, by decide +kernel, by decide +kernel, (build_graded heap).2.2.2.2 _ h⟩

end BuildingModel
