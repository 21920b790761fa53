import BuildingModel.Proofs.View.Batches
import BuildingModel.Proofs.View.Sharing
import BuildingModel.View.Frame

/-!
# Accounting of a frame

Every object of a scene is hidden, clipped, culled or drawn, and every object that is drawn stands in one
batch, once (`Look.Accounts`). The geometry under which a batch is drawn is the one that its first object
asks for, and has the digest of what all its objects ask for. A frame counts every batch as drawn or as
failed, whatever the backend does (`FrameStats.Balanced`).
-/

namespace BuildingModel

variable {α : Type}

/-! ## Variants of a geometry -/

namespace DetailSet

/-- A candidate adds its level at most. -/
lemma levels_consider (s : DetailSet α) (candidate : DetailLevel × Option (Geometry α)) :
    (s.consider candidate).levels = s.levels ∨ (s.consider candidate).levels = s.levels ++ [candidate.1] := by
  obtain ⟨level, _ | g⟩ := candidate
  · exact .inl rfl
  · rw [consider]
    split
    · exact .inr (by simp [levels, variants])
    · exact .inl rfl

/-- Candidates add some of their levels, in order. -/
lemma levels_foldl_consider (candidates : List (DetailLevel × Option (Geometry α))) (s : DetailSet α) :
    ∃ kept, kept.Sublist (candidates.map (·.1)) ∧
      (candidates.foldl consider s).levels = s.levels ++ kept := by
  induction candidates generalizing s with
  | nil => exact ⟨[], .slnil, by simp⟩
  | cons candidate candidates ih =>
    obtain ⟨kept, hkept, hlevels⟩ := ih (s.consider candidate)
    rw [List.foldl_cons, hlevels]
    obtain h | h := s.levels_consider candidate
    · exact ⟨kept, hkept.cons _, by rw [h]⟩
    · exact ⟨candidate.1 :: kept, hkept.cons_cons _, by rw [h, List.append_assoc]; rfl⟩

/-- With each level once, the variant of a level is the only one. -/
lemma get?_of_mem {s : DetailSet α} (hs : s.levels.Nodup) {level : DetailLevel} {g : Geometry α}
    (hg : (level, g) ∈ s.variants) : s.get? level = some g := by
  obtain ⟨before, after, hsplit⟩ := List.append_of_mem hg
  rw [get?, List.lookup_eq_some_iff]
  refine ⟨before, after, hsplit, ?_⟩
  rw [levels, hsplit, List.map_append, List.map_cons, List.nodup_middle, List.nodup_cons] at hs
  intro v hv
  rw [bne_iff_ne]
  rintro rfl
  exact hs.1 (List.mem_append_left _ (List.mem_map.mpr ⟨v, hv, rfl⟩))

/-- What is drawn is one of the variants. -/
lemma select_mem (s : DetailSet α) (level : DetailLevel) : s.select level ∈ s.variants := by
  rw [select]
  generalize hfound : s.variants.reverse.find? _ = found
  cases found with
  | none => exact List.mem_cons_self
  | some v => exact List.mem_reverse.mp (List.mem_of_find?_eq_some hfound)

variable [Stored α]

/-- A geometry has at most one variant of each level, the more detailed ones first. -/
theorem levels_build_sublist (high : Geometry α) : (build high).levels.Sublist DetailLevel.all := by
  obtain ⟨kept, hkept, hlevels⟩ := levels_foldl_consider (candidates high) ⟨high, []⟩
  rw [build, hlevels]
  refine .cons_cons .high (hkept.trans ?_)
  rw [candidates]
  split
  · exact .refl _
  · exact .cons _ (.cons _ (.refl _))

/-- What is drawn for a level can be looked up under the level in which it is drawn. -/
lemma get?_select_build (high : Geometry α) (level : DetailLevel) :
    (build high).get? ((build high).select level).1 = some ((build high).select level).2 := by
  apply get?_of_mem
  · exact (levels_build_sublist high).nodup (by decide)
  · exact select_mem _ _

end DetailSet

namespace Scene

variable {shapes : List (PlacedShape α)} {key : ObjectKey} {o : SceneObject α}

/-- Objects are numbered by their places. -/
lemma mem_keyed_iff {s : Scene α} : (o, key) ∈ s.keyed ↔ s.object? key = some o := by
  rw [keyed, List.mem_zipIdx_iff_getElem?, object?, Array.getElem?_toList]

variable [Stored α]

/-- Every object comes from a shape. -/
lemma exists_shape (ho : (build shapes).object? key = some o) :
    ∃ a ∈ shapes, o.slot = slotOf shapes a := by
  have hlt : key < shapes.length := by
    have h := (Array.getElem?_eq_some_iff.mp ho).1
    simpa [build] using h
  obtain ⟨p, hp, hslot⟩ := object?_build (List.getElem?_eq_getElem hlt)
  cases ho.symm.trans hp
  exact ⟨_, List.getElem_mem hlt, hslot⟩

/-- Every geometry of a scene comes with its variants. -/
lemma eq_build_of_geometry? {slot : Nat} {set : DetailSet α}
    (hset : Scene.geometry? (build shapes) slot = some set) : ∃ g, set = .build g := by
  simp only [build, geometry?, List.getElem?_toArray, List.getElem?_map, Option.map_eq_some_iff] at hset
  obtain ⟨g, -, rfl⟩ := hset
  exact ⟨g, rfl⟩

/-- For every object of a scene there is something to draw at every level, and it is found again under
the level in which it is drawn. -/
lemma active?_build (ho : (build shapes).object? key = some o) (level : DetailLevel) :
    ∃ drawn g, (build shapes).active? o level = some (drawn, g) ∧
      (Scene.geometry? (build shapes) o.slot).bind (·.get? drawn) = some g := by
  obtain ⟨a, ha, hslot⟩ := exists_shape ho
  obtain ⟨-, -, -, set, hset, -⟩ := geometry?_build ha
  rw [← hslot] at hset
  obtain ⟨g, rfl⟩ := eq_build_of_geometry? hset
  refine ⟨_, _, by rw [active?, hset]; rfl, ?_⟩
  rw [hset]
  exact DetailSet.get?_select_build g level

end Scene

/-! ## What becomes of the objects -/

namespace Fate

variable {fates : List (Fate α)}

/-- If no object is lost, every object is hidden, clipped, culled or drawn. -/
lemma counts_add (hfates : .lost ∉ fates) :
    fates.countP (·.isHidden) + fates.countP (·.isClipped) + fates.countP (·.isCulled) +
      (fates.filterMap (·.level?)).length = fates.length := by
  induction fates with
  | nil => rfl
  | cons fate fates ih =>
    rw [List.mem_cons, not_or] at hfates
    have hone : (if fate.isHidden = true then 1 else 0) + (if fate.isClipped = true then 1 else 0) +
        (if fate.isCulled = true then 1 else 0) + (if fate.level?.isSome = true then 1 else 0) = 1 := by
      cases fate with
      | lost => exact absurd rfl hfates.1
      | hidden | clipped | culled | visible => rfl
    have hrest := ih hfates.2
    simp only [List.length_filterMap_eq_countP, List.countP_cons, List.length_cons] at hrest ⊢
    omega

end Fate

/-- Every level is one of four. -/
lemma DetailLevel.counts_add (levels : List DetailLevel) :
    levels.count .high + levels.count .medium + levels.count .low + levels.count .minimal =
      levels.length := by
  induction levels with
  | nil => rfl
  | cons level levels ih =>
    cases level with
    | high | medium | low | minimal =>
      simp
      omega

/-! ## What is drawn -/

/-- There are as many keys as instances in all batches. -/
lemma Batch.length_keysOf (bs : List (Batch α)) :
    (keysOf bs).length = Number.sumOf (·.instances.length) bs := by
  induction bs with
  | nil => rfl
  | cons b bs ih => rw [keysOf_cons, List.length_append, List.length_map, ih, Number.sumOf_cons]

namespace Look

variable [Stored α] {l : Look α} {s : Scene α}

/-- The keys of the objects that are drawn, in the order of the scene. -/
def visibleKeys (l : Look α) (s : Scene α) : List ObjectKey :=
  (s.keyed.filter fun k => (l.fate s k.1).level?.isSome).map (·.2)

/-- The batches of the objects that are drawn, each on its own. -/
def singles (l : Look α) (s : Scene α) : List (Batch α) := s.keyed.filterMap (l.single? s)

/-- The batches of a look are the objects that are drawn, grouped. -/
lemma batches_collect (l : Look α) (s : Scene α) : (l.collect s).batches = Batch.group (l.singles s) := rfl

/-- An object that is drawn is a batch of its own. -/
lemma single?_eq_some_iff {o : SceneObject α} {key : ObjectKey} {x : Batch α} :
    l.single? s (o, key) = some x ↔ ∃ level g, l.fate s o = .visible level g ∧
      x = ⟨o.slot, level, g.hash, [⟨key, o.transform, o.color⟩]⟩ := by
  rw [single?]
  cases l.fate s o with
  | visible level g => simp [eq_comm]
  | hidden | clipped | culled | lost => simp

/-- These batches are those of the objects that are drawn. -/
lemma mem_singles_iff {x : Batch α} :
    x ∈ l.singles s ↔ ∃ key o level g, s.object? key = some o ∧ l.fate s o = .visible level g ∧
      x = ⟨o.slot, level, g.hash, [⟨key, o.transform, o.color⟩]⟩ := by
  simp only [singles, List.mem_filterMap, Prod.exists, Scene.mem_keyed_iff, single?_eq_some_iff]
  constructor
  · rintro ⟨o, key, ho, level, g, hfate, hx⟩
    exact ⟨key, o, level, g, ho, hfate, hx⟩
  · rintro ⟨key, o, level, g, ho, hfate, hx⟩
    exact ⟨o, key, ho, level, g, hfate, hx⟩

/-- Their keys are the keys of the objects that are drawn. -/
lemma keysOf_singles (l : Look α) (s : Scene α) : Batch.keysOf (l.singles s) = l.visibleKeys s := by
  rw [singles, visibleKeys]
  induction s.keyed with
  | nil => rfl
  | cons k ks ih =>
    obtain ⟨o, key⟩ := k
    cases hfate : l.fate s o with
    | visible level g =>
      rw [List.filterMap_cons_some (single?_eq_some_iff.mpr ⟨level, g, hfate, rfl⟩),
        List.filter_cons_of_pos (by simp [hfate, Fate.level?]), List.map_cons, ← ih]
      rfl
    | hidden | clipped | culled | lost =>
      rw [List.filterMap_cons_none (by rw [single?, hfate]),
        List.filter_cons_of_neg (by simp [hfate, Fate.level?]), ih]

/-- They are in the order of the scene. -/
lemma visibleKeys_sorted (l : Look α) (s : Scene α) : (l.visibleKeys s).Pairwise (· < ·) := by
  have hkeys : (s.keyed.map (·.2)).Pairwise (· < ·) := by
    rw [Scene.keyed, List.zipIdx_map_snd]
    exact List.pairwise_lt_range'
  exact hkeys.sublist (List.filter_sublist.map _)

/-- So the batches of a look are a grouping of them. -/
lemma grouped_collect (l : Look α) (s : Scene α) :
    Batch.Grouped (l.singles s) (l.collect s).batches := by
  rw [batches_collect]
  apply Batch.grouped_group
  · intro x hx
    obtain ⟨key, o, level, g, -, -, rfl⟩ := mem_singles_iff.mp hx
    exact List.cons_ne_nil _ _
  · rw [keysOf_singles]
    exact l.visibleKeys_sorted s

/-- As many objects are drawn as the look counts. -/
lemma length_visibleKeys (l : Look α) (s : Scene α) : (l.visibleKeys s).length = (l.collect s).visible := by
  have hobjects : s.objects.toList = s.keyed.map (·.1) := by rw [Scene.keyed, List.zipIdx_map_fst]
  rw [visibleKeys, List.length_map, ← List.countP_eq_length_filter]
  simp only [VisibleSet.visible, collect, fates, List.filterMap_map, List.length_filterMap_eq_countP,
    hobjects, List.countP_map]
  rfl

/-- All objects of the scene are accounted for. -/
structure Accounts (l : Look α) (s : Scene α) : Prop where
  /-- Every object is hidden, clipped, culled or drawn. -/
  never_lost : ∀ key o, s.object? key = some o → l.fate s o ≠ .lost
  counts : (l.collect s).hidden + (l.collect s).clipped + (l.collect s).culled + (l.collect s).visible =
    s.objectCount
  levels : (l.collect s).levelCount .high + (l.collect s).levelCount .medium +
    (l.collect s).levelCount .low + (l.collect s).levelCount .minimal = (l.collect s).visible
  instanceCount : (l.collect s).instanceCount = (l.collect s).visible
  /-- An object that is drawn occurs in one batch, and there once. -/
  once : ∀ key o level g, s.object? key = some o → l.fate s o = .visible level g →
    (Batch.keysOf (l.collect s).batches).count key = 1
  sorted : ∀ b ∈ (l.collect s).batches, (b.instances.map (·.object)).Pairwise (· < ·)
  hashes : ((l.collect s).batches.map (·.hash)).Nodup
  ne_nil : ∀ b ∈ (l.collect s).batches, b.instances ≠ []
  ordered : (l.collect s).batches.Pairwise Batch.Before
  /-- The geometry under which a batch is drawn is in the scene. -/
  geometry : ∀ b ∈ (l.collect s).batches,
    ∃ g, (Scene.geometry? s b.slot).bind (·.get? b.level) = some g ∧ g.hash = b.hash
  /-- What an object of a batch asks for has the digest of the batch. -/
  members : ∀ b ∈ (l.collect s).batches, ∀ i ∈ b.instances, ∃ o level g,
    s.object? i.object = some o ∧ l.fate s o = .visible level g ∧
      s.active? o (l.requestedLevel o) = some (level, g) ∧ g.hash = b.hash ∧
      i.transform = o.transform ∧ i.color = o.color

/-- What is drawn for a visible object is what it asks for. -/
lemma active?_of_fate {o : SceneObject α} {level : DetailLevel} {g : Geometry α}
    (hfate : l.fate s o = .visible level g) : s.active? o (l.requestedLevel o) = some (level, g) := by
  rw [fate] at hfate
  split at hfate
  · cases hfate
  · split at hfate
    · cases hfate
    · split at hfate
      · cases hfate
      · cases hactive : s.active? o (l.requestedLevel o) with
        | none => rw [hactive] at hfate; cases hfate
        | some found => rw [hactive] at hfate; cases hfate; rfl

/-- An object whose geometry is there is not lost. -/
lemma fate_ne_lost {o : SceneObject α} (ho : (s.active? o (l.requestedLevel o)).isSome = true) :
    l.fate s o ≠ .lost := by
  obtain ⟨found, hactive⟩ := Option.isSome_iff_exists.mp ho
  rw [fate, hactive]
  split
  · nofun
  · split
    · nofun
    · split
      · nofun
      · nofun

end Look

/-- Every look at a scene accounts for all its objects. -/
theorem Look.accounts_build [Stored α] (l : Look α) (shapes : List (PlacedShape α)) :
    l.Accounts (Scene.build shapes) := by
  have hgrouped := l.grouped_collect (Scene.build shapes)
  have hsorted := l.visibleKeys_sorted (Scene.build shapes)
  have hsingles := l.keysOf_singles (Scene.build shapes)
  have hlost : ∀ key o, (Scene.build shapes).object? key = some o → l.fate (Scene.build shapes) o ≠ .lost := by
    intro key o ho
    apply fate_ne_lost
    obtain ⟨drawn, g, hactive, -⟩ := Scene.active?_build ho (l.requestedLevel o)
    rw [hactive]
    rfl
  have hperm := hgrouped.keys
  rw [hsingles] at hperm
  refine
    { never_lost := hlost
      counts := ?_
      levels := DetailLevel.counts_add _
      instanceCount := ?_
      once := ?_
      sorted := fun b hb => hgrouped.sorted (hsingles ▸ hsorted) hb
      hashes := hgrouped.nodup
      ne_nil := hgrouped.ne_nil
      ordered := hgrouped.ordered
      geometry := ?_
      members := ?_ }
  · have hfates : .lost ∉ l.fates (Scene.build shapes) := by
      intro h
      obtain ⟨o, ho, hfate⟩ := List.mem_map.mp h
      obtain ⟨key, hkey⟩ := List.mem_iff_getElem?.mp ho
      rw [Array.getElem?_toList] at hkey
      exact hlost key o hkey hfate
    have hcounts := Fate.counts_add hfates
    rw [Look.fates, List.length_map, Array.length_toList] at hcounts
    exact hcounts
  · rw [← length_visibleKeys, ← hperm.length_eq, Batch.length_keysOf]
    rfl
  · intro key o level g ho hfate
    have hnodup : (l.visibleKeys (Scene.build shapes)).Nodup := hsorted.imp Nat.ne_of_lt
    have hmem : key ∈ l.visibleKeys (Scene.build shapes) := by
      rw [← hsingles]
      have hx := mem_singles_iff.mpr ⟨key, o, level, g, ho, hfate, rfl⟩
      exact List.mem_flatMap.mpr ⟨_, hx, List.mem_singleton.mpr rfl⟩
    rw [hperm.count_eq, List.count_eq_one_of_mem hnodup hmem]
  · intro b hb
    obtain ⟨x, hx, hhash, hslot, hlevel⟩ := hgrouped.leader b hb
    obtain ⟨key, o, level, g, ho, hfate, rfl⟩ := mem_singles_iff.mp hx
    obtain ⟨drawn, g', hactive, hget⟩ := Scene.active?_build ho (l.requestedLevel o)
    cases (active?_of_fate hfate).symm.trans hactive
    simp only at hhash hslot hlevel
    rw [hslot, hlevel] at hget
    exact ⟨g, hget, hhash⟩
  · intro b hb i hi
    obtain ⟨x, hx, hhash, hmem⟩ := hgrouped.exists_single hb hi
    obtain ⟨key, o, level, g, ho, hfate, rfl⟩ := mem_singles_iff.mp hx
    rw [List.mem_singleton] at hmem
    subst hmem
    exact ⟨o, level, g, ho, hfate, active?_of_fate hfate, hhash, rfl, rfl⟩

/-! ## Frames -/

/-- The counts of a frame of a scene with some objects add up. -/
structure FrameStats.Balanced (f : FrameStats) (objects : Nat) : Prop where
  objects : f.hidden + f.clipped + f.culled + f.visible = objects
  levels : f.high + f.medium + f.low + f.minimal = f.visible
  batches : f.drawCalls + f.failedBatches = f.batches

namespace FrameContext

variable {σ : Type}

/-- There is an answer for each batch. -/
lemma length_drawBatches (c : FrameContext α) (backend : Backend α σ) (bs : List (Batch α)) (state : σ) :
    (c.drawBatches backend bs state).1.length = bs.length := by
  induction bs generalizing state with
  | nil => rfl
  | cons b bs ih => rw [drawBatches, List.length_cons, List.length_cons, ih]

/-- Every batch is drawn or fails. -/
lemma drawCalls_add_failedBatches (v : VisibleSet α) (drawn : List (Option Nat)) :
    (stats v drawn).drawCalls + (stats v drawn).failedBatches = drawn.length := by
  rw [List.length_eq_countP_add_countP (·.isSome)]
  apply congrArg
  apply List.countP_congr
  intro d _
  cases d with
  | none => simp
  | some n => simp

/-- A frame counts what was collected, and something for each batch. -/
lemma render_eq_stats [Stored α] (c : FrameContext α) (backend : Backend α σ) (state : σ) :
    ∃ drawn, (c.render backend state).1 = stats (c.look.collect c.scene) drawn ∧
      drawn.length = (c.look.collect c.scene).batches.length := by
  rw [render]
  split
  · exact ⟨_, rfl, List.length_map _⟩
  · exact ⟨_, rfl, c.length_drawBatches backend _ _⟩

end FrameContext

/-- For every scene, every look at it accounts for all its objects; every frame of it finds the geometry of
each batch, and its counts add up, whatever the backend refuses. -/
theorem frames_account [Stored α] (shapes : List (PlacedShape α)) :
    (∀ l : Look α, l.Accounts (Scene.build shapes)) ∧
      ∀ (c : FrameContext α) (σ : Type) (backend : Backend α σ) (state : σ),
        let c := { c with scene := Scene.build shapes }
        (∀ b ∈ (c.look.collect c.scene).batches, ∃ g, c.geometry? b = some g ∧ g.hash = b.hash) ∧
          (c.render backend state).1.batches = (c.look.collect c.scene).batches.length ∧
          (c.render backend state).1.Balanced c.scene.objectCount := by
  refine ⟨fun l => l.accounts_build shapes, fun c σ backend state => ?_⟩
  intro c
  have haccounts := c.look.accounts_build shapes
  obtain ⟨drawn, hstats, hlength⟩ := c.render_eq_stats backend state
  refine ⟨haccounts.geometry, ?_, ?_⟩
  · rw [hstats]
    rfl
  · rw [hstats]
    refine ⟨haccounts.counts, haccounts.levels, ?_⟩
    rw [FrameContext.drawCalls_add_failedBatches, hlength]
    rfl

end BuildingModel
