import BuildingModel.Proofs.Extract.Overflow
import BuildingModel.Proofs.Extract.Runs
import BuildingModel.Proofs.Exchange.Grammar
import BuildingModel.Proofs.Linked.Extension
import BuildingModel.Proofs.Linked.SafeToWalk
import BuildingModel.Proofs.ProblemLog

/-!
# Complete extractions

`Extraction.Complete` says what an extraction of a model holds, without any batches: the shapes of all
candidates that are sound, have a rule and can be made, in file order, and an account of all others.
`LinkedModel.RunsTo` says that a run gives this extraction or nothing, and what it counts on the way. One
extraction is what all runs give, however large their batches are and whenever they are cancelled, unless a
candidate overflows; then no run gives anything (`ExchangeFile.extract_complete`).
-/

namespace BuildingModel

open Exchange

/-- What is kept of a list stands in the order of the list. -/
lemma filterMap_sublist_map {α β : Type} {f : α → Option β} {g : α → β} {l : List α}
    (hf : ∀ a ∈ l, ∀ b, f a = some b → b = g a) : (l.filterMap f).Sublist (l.map g) := by
  induction l with
  | nil => exact .slnil
  | cons a l ih =>
    have ih := ih fun b hb => hf b (List.mem_cons_of_mem _ hb)
    rw [List.map_cons]
    cases ha : f a with
    | none =>
      rw [List.filterMap_cons_none ha]
      exact ih.cons _
    | some b =>
      rw [List.filterMap_cons_some ha, hf a List.mem_cons_self b ha]
      exact ih.cons_cons _

/-! ## Accounts -/

/-- A candidate is worked on, has no rule or is broken. -/
lemma length_screened (ss : List Screened) :
    ss.length = (ss.filterMap (·.work?)).length + ss.countP (·.isUnsupported) + ss.countP (·.isBroken) := by
  induction ss with
  | nil => rfl
  | cons s ss ih =>
    cases s with
    | unsupported => simp [Screened.work?, Screened.isUnsupported, Screened.isBroken, ih]; omega
    | broken => simp [Screened.work?, Screened.isUnsupported, Screened.isBroken, ih]; omega
    | accepted item => simp [Screened.work?, Screened.isUnsupported, Screened.isBroken, ih]; omega

/-- What is worked on gives a shape or a problem. -/
lemma length_results (rs : List WorkResult) :
    rs.length = (rs.filterMap (·.object?)).length + (rs.filterMap (·.problem?)).length := by
  induction rs with
  | nil => rfl
  | cons r rs ih =>
    obtain ⟨id, result⟩ := r
    cases result with
    | ok o => simp [WorkResult.object?, WorkResult.problem?, Except.toOption, ih]; omega
    | error e => simp [WorkResult.object?, WorkResult.problem?, Except.toOption, ih]; omega

/-- The problem of an entity is that it could not be extracted. -/
lemma kind_of_problem? {r : WorkResult} {q : Problem} (hq : r.problem? = some q) :
    q.kind = .extractionFailed := by
  obtain ⟨id, result⟩ := r
  cases result with
  | ok o => cases hq
  | error e =>
    cases hq
    rfl

/-- The check of a mesh does not overflow. -/
lemma Geometry.fault?_ne_overflow {α : Type} [Stored α] (entity : EntityId) (m : Mesh α) :
    fault? entity m ≠ some .overflow := by
  intro h
  unfold fault? at h
  grind

namespace LinkedModel

variable {m : LinkedModel} {s : ExtractionSettings} {table : MethodTable} {unit : Float}
  {e : LinkedEntity} {rule : ExtractionRule} {o : PlacedShape Float32} {h : Handle}

/-- A shape has the number and the kind of its entity. -/
lemma placedShape_eq_ok (ho : m.placedShape table unit e rule = .ok o) : o.entity = e.id ∧ o.kind = e.kind := by
  rw [placedShape] at ho
  obtain ⟨⟨⟨mesh, primitive⟩, transform⟩, -, ho⟩ := bind_eq_ok_iff.mp ho
  obtain ⟨geometry, -, ho⟩ := bind_eq_ok_iff.mp ho
  cases ho
  exact ⟨rfl, rfl⟩

/-- The shape of the entity at a place, if it is sound, there is a rule for it, and it can be made. -/
def shapeAt? (m : LinkedModel) (s : ExtractionSettings) (table : MethodTable) (h : Handle) :
    Option (PlacedShape Float32) :=
  (m.get? h).bind fun e => (s.rule? e.kind).bind fun rule =>
    if m.statusOf h = .ok then (m.placedShape table m.lengthUnit e rule).toOption else none

/-- When there is a shape at a place. -/
lemma shapeAt?_eq_some_iff : m.shapeAt? s table h = some o ↔
    ∃ e rule, m.get? h = some e ∧ s.rule? e.kind = some rule ∧ m.statusOf h = .ok ∧
      m.placedShape table m.lengthUnit e rule = .ok o := by
  have hok : ∀ {r : Except ShapeError (PlacedShape Float32)}, r.toOption = some o ↔ r = .ok o := by
    intro r
    cases r <;> simp [Except.toOption]
  simp only [shapeAt?, Option.bind_eq_some_iff, Option.ite_none_right_eq_some, hok]
  constructor
  · rintro ⟨e, he, rule, hrule, hstatus, ho⟩
    exact ⟨e, rule, he, hrule, hstatus, ho⟩
  · rintro ⟨e, rule, he, hrule, hstatus, ho⟩
    exact ⟨e, he, rule, hrule, hstatus, ho⟩

/-- What comes of an entity that is worked on. -/
def itemResult (m : LinkedModel) (table : MethodTable) (item : WorkItem) : WorkResult :=
  (item.entity.id, m.placedShape table m.lengthUnit item.entity item.rule)

/-- What comes of all candidates that are sound and have a rule. -/
def workResults (m : LinkedModel) (s : ExtractionSettings) (table : MethodTable) : List WorkResult :=
  (m.work s).map (m.itemResult table)

/-- The shapes of the work to do are the shapes of the candidates. -/
lemma objects_work (m : LinkedModel) (s : ExtractionSettings) (table : MethodTable) :
    (m.workResults s table).filterMap (·.object?) = m.candidates.filterMap (m.shapeAt? s table) := by
  rw [workResults, work, screened, List.filterMap_map, List.filterMap_map, List.filterMap_filterMap]
  apply List.filterMap_congr
  intro h _
  simp only [Function.comp_apply, screen, shapeAt?]
  cases m.get? h with
  | none => rfl
  | some e =>
    simp only [Option.bind_some]
    cases s.rule? e.kind with
    | none => rfl
    | some rule =>
      simp only [Option.bind_some]
      split <;> rfl

/-! ## Overflows -/

/-- Only making the mesh of an entity can overflow, not the check of the mesh. -/
lemma placedShape_eq_overflow_iff : m.placedShape table unit e rule = .error .overflow ↔
    m.placedMesh table rule.strategy e = .error .overflow := by
  rw [placedShape]
  cases m.placedMesh table rule.strategy e with
  | error problem => simp [bind, Except.bind]
  | ok placed =>
    obtain ⟨⟨mesh, primitive⟩, transform⟩ := placed
    have hmesh := Geometry.fault?_ne_overflow e.id (meshInMetres mesh unit)
    cases hfault : Geometry.fault? e.id (meshInMetres mesh unit) with
    | none => simp [bind, Except.bind, Geometry.ofMesh, hfault, pure, Except.pure]
    | some fault =>
      rw [hfault, ne_eq, Option.some.injEq] at hmesh
      simp [bind, Except.bind, Geometry.ofMesh, hfault, hmesh]

/-- The entity at a place is sound, there is a rule for it, and making its shape overflows. -/
def OverflowsAt (m : LinkedModel) (s : ExtractionSettings) (table : MethodTable) (h : Handle) : Prop :=
  ∃ e rule, m.get? h = some e ∧ s.rule? e.kind = some rule ∧ m.statusOf h = .ok ∧
    m.placedShape table m.lengthUnit e rule = .error .overflow

/-- Making the shape of some candidate overflows. -/
def Overflows (m : LinkedModel) (s : ExtractionSettings) (table : MethodTable) : Prop :=
  ∃ h ∈ m.candidates, m.OverflowsAt s table h

/-- Nothing overflows if no curve of the model names the least number. -/
lemma not_overflows_of_tame (htable : table.Known) (htame : m.Tame) : ¬ m.Overflows s table := by
  rintro ⟨h, -, e, rule, he, -, -, hover⟩
  exact htame.calm_placedMesh htable rule.strategy (mem_entityList_of_get? he)
    (placedShape_eq_overflow_iff.mp hover)

/-- What overflows has a curve that names the least number. -/
lemma exists_namesLeast (htable : table.Known) (hover : m.Overflows s table) : ∃ e ∈ m.entityList, e.NamesLeast := by
  by_contra hnone
  exact not_overflows_of_tame htable (fun e he hleast => hnone ⟨e, he, hleast⟩) hover

/-- Candidates are worked on if they are sound and there is a rule for them. -/
lemma mem_work_iff {item : WorkItem} : item ∈ m.work s ↔
    ∃ h ∈ m.candidates, m.get? h = some item.entity ∧ s.rule? item.entity.kind = some item.rule ∧
      m.statusOf h = .ok := by
  simp only [work, screened, List.mem_filterMap, List.mem_map, exists_exists_and_eq_and]
  apply exists_congr
  intro h
  apply and_congr_right
  intro _
  rw [screen]
  cases m.get? h with
  | none => simp [Screened.work?]
  | some e =>
    cases hrule : s.rule? e.kind with
    | none =>
      simp only [Screened.work?, hrule, Option.some.injEq]
      constructor
      · intro hnone
        cases hnone
      · rintro ⟨rfl, hsome, -⟩
        rw [hrule] at hsome
        cases hsome
    | some rule =>
      simp only [hrule]
      split
      · rename_i hstatus
        simp only [Screened.work?, Option.some.injEq, hstatus, and_true]
        constructor
        · rintro rfl
          exact ⟨rfl, hrule⟩
        · rintro ⟨rfl, hsome⟩
          rw [hrule] at hsome
          cases hsome
          rfl
      · rename_i hstatus
        simp [Screened.work?, hstatus]

/-- Some candidate overflows exactly if something that is worked on does. -/
lemma overflows_iff : m.Overflows s table ↔
    ∃ item ∈ m.work s, m.placedShape table m.lengthUnit item.entity item.rule = .error .overflow := by
  constructor
  · rintro ⟨h, hh, e, rule, he, hrule, hstatus, hplaced⟩
    exact ⟨⟨e, rule⟩, mem_work_iff.mpr ⟨h, hh, he, hrule, hstatus⟩, hplaced⟩
  · rintro ⟨item, hitem, hplaced⟩
    obtain ⟨h, hh, he, hrule, hstatus⟩ := mem_work_iff.mp hitem
    exact ⟨h, hh, item.entity, item.rule, he, hrule, hstatus, hplaced⟩

/-- An entity is extracted, with or without a shape, unless it overflows. -/
lemma extractItem_of_ne {item : WorkItem}
    (h : m.placedShape table m.lengthUnit item.entity item.rule ≠ .error .overflow) :
    m.extractItem table m.lengthUnit item = .ok (m.itemResult table item) := by
  rw [extractItem]
  split
  · rename_i hover
    exact absurd hover h
  · rfl

/-- An entity that overflows ends the run. -/
lemma extractItem_of_eq {item : WorkItem}
    (h : m.placedShape table m.lengthUnit item.entity item.rule = .error .overflow) :
    m.extractItem table m.lengthUnit item = .error .overflow := by
  rw [extractItem, h]

/-- If nothing overflows, the work gives its results. -/
lemma mapM_work_of_not_overflows (h : ¬ m.Overflows s table) :
    ∀ item ∈ m.work s, m.extractItem table m.lengthUnit item = .ok (m.itemResult table item) := by
  intro item hitem
  apply extractItem_of_ne
  intro hover
  exact h (overflows_iff.mpr ⟨item, hitem, hover⟩)

/-- If something overflows, the work gives nothing. -/
lemma mapM_work_of_overflows (h : m.Overflows s table) :
    (m.work s).mapM (m.extractItem table m.lengthUnit) = .error .overflow := by
  obtain ⟨bad, hbad, hover⟩ := overflows_iff.mp h
  refine mapM_eq_error_of_mem ?_ ⟨bad, hbad, extractItem_of_eq hover⟩
  intro item _ e he
  by_cases hitem : m.placedShape table m.lengthUnit item.entity item.rule = .error .overflow
  · rw [extractItem_of_eq hitem] at he
    cases he
    rfl
  · rw [extractItem_of_ne hitem] at he
    cases he

/-! ## Order -/

/-- What makes an entity a candidate. -/
lemma mem_candidates_iff :
    h ∈ m.candidates ↔ ∃ e, m.get? h = some e ∧ m.isConsumed h = false ∧ e.kind.isNonGeometric = false := by
  simp only [candidates, List.mem_map, List.mem_filter, Bool.and_eq_true, Bool.not_eq_true']
  constructor
  · rintro ⟨⟨e, k⟩, ⟨hmem, hflags⟩, rfl⟩
    exact ⟨e, mem_placed_iff.mp hmem, hflags⟩
  · rintro ⟨e, he, hflags⟩
    exact ⟨(e, h), ⟨mem_placed_iff.mpr he, hflags⟩, rfl⟩

/-- The shapes stand in the order of their entities. -/
lemma entities_shapeAt?_sublist (m : LinkedModel) (s : ExtractionSettings) (table : MethodTable) :
    ((m.candidates.filterMap (m.shapeAt? s table)).map (·.entity)).Sublist (m.entityList.map (·.id)) := by
  have hall : m.placed.map (fun p => p.1.id) = m.entityList.map (·.id) := by
    have hfst : m.placed.map Prod.fst = m.entityList := List.zipIdx_map_fst 0 m.entityList
    rw [← hfst, List.map_map]
    rfl
  rw [candidates, List.filterMap_map, List.map_filterMap, ← hall]
  refine List.Sublist.trans (filterMap_sublist_map ?_) (List.filter_sublist.map _)
  rintro ⟨e, h⟩ hmem id hid
  obtain ⟨o, ho, rfl⟩ := Option.map_eq_some_iff.mp hid
  obtain ⟨e', rule, he', -, -, hshape⟩ := shapeAt?_eq_some_iff.mp ho
  cases (mem_placed_iff.mp (List.mem_filter.mp hmem).1).symm.trans he'
  exact (placedShape_eq_ok hshape).1

/-! ## Runs -/

/-- What a run that nothing stops gives. -/
def extraction (m : LinkedModel) (s : ExtractionSettings) (table : MethodTable) : Extraction :=
  m.assemble s (m.workResults s table)

/-- There is a result for everything that is worked on. -/
lemma length_workResults : (m.workResults s table).length = (m.work s).length := List.length_map _

/-- Each entity that is worked on is extracted or fails. -/
lemma length_work (m : LinkedModel) (s : ExtractionSettings) (table : MethodTable) : (m.work s).length =
    (m.extraction s table).summary.extracted + (m.extraction s table).summary.failed := by
  rw [← length_workResults, length_results]
  rfl

/-- Each candidate is counted once. -/
lemma candidates_extraction (m : LinkedModel) (s : ExtractionSettings) (table : MethodTable) :
    (m.extraction s table).summary.candidates =
      (m.extraction s table).summary.extracted + (m.extraction s table).summary.failed +
        (m.extraction s table).summary.skippedUnsupported + (m.extraction s table).summary.excludedBroken := by
  have hscreened := length_screened (m.screened s)
  have hwork := m.length_work s table
  rw [work] at hwork
  rw [hwork] at hscreened
  exact hscreened

end LinkedModel

/-- What an extraction of a model holds. -/
structure Extraction.Complete (x : Extraction) (m : LinkedModel) (s : ExtractionSettings)
    (table : MethodTable) : Prop where
  objects : x.objects = m.candidates.filterMap (m.shapeAt? s table)
  unit : x.unit = m.lengthUnit
  candidates : x.summary.candidates = m.candidates.length
  accounted : x.summary.candidates = x.summary.extracted + x.summary.failed +
    x.summary.skippedUnsupported + x.summary.excludedBroken
  extracted : x.summary.extracted = x.objects.length
  failed : x.log.count .extractionFailed = .ofNat x.summary.failed
  inOrder : (x.objects.map (·.entity)).Sublist (m.entityList.map (·.id))
  distinct : (x.objects.map (·.entity)).Nodup
  supported : ∀ o ∈ x.objects, ∃ h ∈ m.candidates, ∃ e rule, m.get? h = some e ∧ m.statusOf h = .ok ∧
    s.rule? e.kind = some rule ∧ o.entity = e.id ∧ o.kind = e.kind

/-- A run gives the extraction `x`, or nothing if one of its looks finds it cancelled. There is a look
before each batch and one at the end. -/
structure LinkedModel.RunsTo (m : LinkedModel) (s : ExtractionSettings) (table : MethodTable)
    (cancelled : CancelSchedule) (p : Progress) (x : Extraction) : Prop where
  result : (m.extract s table cancelled p).1 = .ok x ∨ (m.extract s table cancelled p).1 = .error .cancelled
  stopped : (m.extract s table cancelled p).1 = .error .cancelled ↔
    ∃ look, look * max 1 s.batchSize < (m.work s).length + max 1 s.batchSize ∧ cancelled look = true
  worked : (m.work s).length = x.summary.extracted + x.summary.failed
  /-- At the end everything has been counted. -/
  finished : (m.extract s table cancelled p).1 = .ok x → (m.extract s table cancelled p).2.getLast? =
    some ⟨p.stage, (m.work s).length.toUInt64, (m.work s).length.toUInt64⟩
  /-- On the way no more is counted than there is. -/
  counted : ∀ q ∈ (m.extract s table cancelled p).2, ∃ k ≤ (m.work s).length,
    q = ⟨p.stage, k.toUInt64, (m.work s).length.toUInt64⟩
  bounded : (m.work s).length < UInt64.size →
    ∀ q ∈ (m.extract s table cancelled p).2, q.processed ≤ q.total

namespace LinkedModel

variable {m : LinkedModel} {s : ExtractionSettings} {table : MethodTable} {cancelled : CancelSchedule}
  {p : Progress}

/-- What a run that nothing stops gives is complete. -/
lemma extraction_complete (hids : (m.entityList.map (·.id)).Nodup) :
    (m.extraction s table).Complete m s table := by
  have hobjects : (m.extraction s table).objects = m.candidates.filterMap (m.shapeAt? s table) :=
    m.objects_work s table
  have horder := m.entities_shapeAt?_sublist s table
  rw [← hobjects] at horder
  refine ⟨hobjects, rfl, ?_, ?_, rfl, ?_, horder, hids.sublist horder, ?_⟩
  · exact List.length_map _
  · exact m.candidates_extraction s table
  · -- Nothing but a failure leaves a problem behind.
    have hkinds : ∀ q ∈ (m.workResults s table).filterMap (·.problem?),
        decide (q.kind = .extractionFailed) = true := by
      intro q hq
      obtain ⟨r, -, hr⟩ := List.mem_filterMap.mp hq
      exact decide_eq_true (kind_of_problem? hr)
    have hcount := (ProblemLog.empty s.messageLimit).count_pushAll
      ((m.workResults s table).filterMap (·.problem?)) .extractionFailed
    rw [ProblemLog.count_empty, UInt64.zero_add, List.countP_eq_length.mpr hkinds] at hcount
    exact hcount
  · intro o ho
    rw [hobjects] at ho
    obtain ⟨h, hh, hshape⟩ := List.mem_filterMap.mp ho
    obtain ⟨e, rule, he, hrule, hstatus, hplaced⟩ := shapeAt?_eq_some_iff.mp hshape
    exact ⟨h, hh, e, rule, he, hstatus, hrule, placedShape_eq_ok hplaced⟩

/-- The batches of a run. -/
def batches (m : LinkedModel) (s : ExtractionSettings) : List (List WorkItem) :=
  groups (s.batchSize - 1) (m.work s)

/-- The run over the batches. -/
def runWork (m : LinkedModel) (s : ExtractionSettings) (table : MethodTable) (cancelled : CancelSchedule)
    (p : Progress) : Except ShapeError (List WorkResult) × List Progress :=
  runBatches cancelled (m.extractItem table m.lengthUnit) 0 (m.batches s) (p.begin (m.work s).length.toUInt64)

/-- An extraction is put together from what the run over the batches gives. -/
lemma extract_eq : m.extract s table cancelled p =
    ((m.runWork s table cancelled p).1.map (m.assemble s), (m.runWork s table cancelled p).2) := rfl

/-- The batches make up the work. -/
lemma flatten_batches : (m.batches s).flatten = m.work s := flatten_groups _ _

/-- A run that finds itself cancelled gives nothing. -/
lemma extract_of_cancelled
    (h : ∃ look < looks (m.extractItem table m.lengthUnit) (m.batches s), cancelled look = true) :
    (m.extract s table cancelled p).1 = .error .cancelled := by
  obtain ⟨look, hlook, hfound⟩ := h
  rw [extract_eq, runWork, runBatches_cancelled _ _ _ ⟨look, hlook, by rwa [Nat.zero_add]⟩]
  rfl

/-- A run that does not find itself cancelled gives what is put together from the work. -/
lemma extract_of_open
    (h : ∀ look < looks (m.extractItem table m.lengthUnit) (m.batches s), cancelled look = false) :
    (m.extract s table cancelled p).1 =
      ((m.work s).mapM (m.extractItem table m.lengthUnit)).map (m.assemble s) := by
  rw [extract_eq, runWork, runBatches_open, flatten_batches]
  intro look hlook
  rw [Nat.zero_add]
  exact h look hlook

/-- A run finds itself cancelled, or it does not. -/
lemma cancelled_or_open (cancelled : CancelSchedule) (n : Nat) :
    (∃ look < n, cancelled look = true) ∨ ∀ look < n, cancelled look = false := by
  by_cases h : ∃ look < n, cancelled look = true
  · exact .inl h
  · refine .inr fun look hlook => Bool.eq_false_of_not_eq_true fun hfound => h ⟨look, hlook, hfound⟩

/-- If nothing overflows, a run gives the extraction or nothing, by what its looks find. -/
lemma extract_cases (h : ¬ m.Overflows s table) (cancelled : CancelSchedule) (p : Progress) :
    ((∀ look ≤ (m.batches s).length, cancelled look = false) ∧
        (m.extract s table cancelled p).1 = .ok (m.extraction s table)) ∨
      (∃ look ≤ (m.batches s).length, cancelled look = true) ∧
        (m.extract s table cancelled p).1 = .error .cancelled := by
  have hwork := mapM_work_of_not_overflows h
  have hlooks : looks (m.extractItem table m.lengthUnit) (m.batches s) = (m.batches s).length + 1 :=
    looks_eq_length (f := m.itemResult table) (by rwa [flatten_batches])
  simp only [← Nat.lt_succ_iff, Nat.succ_eq_add_one, ← hlooks]
  rcases cancelled_or_open cancelled (looks (m.extractItem table m.lengthUnit) (m.batches s)) with hfound | hopen
  · exact .inr ⟨hfound, extract_of_cancelled hfound⟩
  · refine .inl ⟨hopen, ?_⟩
    rw [extract_of_open hopen, mapM_eq_map hwork]
    rfl

/-- If something overflows, no run gives an extraction. -/
lemma extract_of_overflows (h : m.Overflows s table) (cancelled : CancelSchedule) (p : Progress) :
    (m.extract s table cancelled p).1 = .error .overflow ∨
      (∃ look, cancelled look = true) ∧ (m.extract s table cancelled p).1 = .error .cancelled := by
  rcases cancelled_or_open cancelled (looks (m.extractItem table m.lengthUnit) (m.batches s)) with hfound | hopen
  · obtain ⟨look, -, hlook⟩ := id hfound
    exact .inr ⟨⟨look, hlook⟩, extract_of_cancelled hfound⟩
  · rw [extract_of_open hopen, mapM_work_of_overflows h]
    exact .inl rfl

/-- After some items these have been counted. -/
lemma begin_advance (total : UInt64) (k : Nat) :
    (p.begin total).advance k.toUInt64 = ⟨p.stage, k.toUInt64, total⟩ := by
  simp only [Progress.begin, Progress.advance, UInt64.zero_add]

/-- On the way no more is counted than there is. -/
lemma counted_of_mem_extract {q : Progress} (hq : q ∈ (m.extract s table cancelled p).2) :
    ∃ k ≤ (m.work s).length, q = ⟨p.stage, k.toUInt64, (m.work s).length.toUInt64⟩ := by
  rw [extract_eq] at hq
  obtain ⟨k, hk, rfl⟩ := counted_of_mem_trail _ _ _ _ hq
  rw [flatten_batches] at hk
  exact ⟨k, hk, begin_advance _ k⟩

/-- If nothing overflows, every run gives the one extraction or nothing. -/
lemma extract_runsTo (h : ¬ m.Overflows s table) (cancelled : CancelSchedule) (p : Progress) :
    m.RunsTo s table cancelled p (m.extraction s table) := by
  have hlooks : ∀ look, look ≤ (m.batches s).length ↔
      look * max 1 s.batchSize < (m.work s).length + max 1 s.batchSize := by
    intro look
    exact le_length_groups_iff s.batchSize look (m.work s)
  have hcases := extract_cases h cancelled p
  refine ⟨?_, ?_, m.length_work s table, ?_, fun q => counted_of_mem_extract, ?_⟩
  · rcases hcases with ⟨-, hok⟩ | ⟨-, hnone⟩
    · exact .inl hok
    · exact .inr hnone
  · simp only [← hlooks]
    rcases hcases with ⟨hopen, hok⟩ | ⟨hfound, hnone⟩
    · rw [hok]
      constructor
      · intro hne
        cases hne
      · rintro ⟨look, hlook, hfound⟩
        rw [hopen look hlook] at hfound
        cases hfound
    · exact ⟨fun _ => hfound, fun _ => hnone⟩
  · intro hok
    rw [extract_eq] at hok
    cases hrun : (m.runWork s table cancelled p).1 with
    | error e =>
      rw [hrun] at hok
      cases hok
    | ok results =>
      have hlast := counted_of_run _ _ _ hrun
      rw [flatten_batches, begin_advance] at hlast
      exact hlast
  · intro hsize q hq
    obtain ⟨k, hk, rfl⟩ := counted_of_mem_extract hq
    rw [UInt64.le_iff_toNat_le]
    rw [UInt64.toNat_ofNat_of_lt' hsize, UInt64.toNat_ofNat_of_lt' (Nat.lt_of_le_of_lt hk hsize)]
    exact hk

end LinkedModel

namespace ExchangeFile

/-- One extraction is what all runs on a model give, whatever the size of their batches, unless a candidate
overflows. Then no run gives an extraction: it ends with the overflow, or before that because it is cancelled. With
a table of known methods nothing overflows but a curve that names the least number. The table of every file that is
read is sound (`ExchangeFile.sound_parse`). -/
theorem extract_complete (file : ExchangeFile) (hfile : file.table.Sound) (s : ExtractionSettings)
    (table : MethodTable) :
    (¬ file.link.Overflows s table → ∃ x : Extraction, x.Complete file.link s table ∧ ∀ size cancelled p,
      file.link.RunsTo { s with batchSize := size } table cancelled p x) ∧
    (file.link.Overflows s table → ∀ size cancelled p,
      (file.link.extract { s with batchSize := size } table cancelled p).1 = .error .overflow ∨
        (∃ look, cancelled look = true) ∧
          (file.link.extract { s with batchSize := size } table cancelled p).1 = .error .cancelled) ∧
    (table.Known → file.link.Overflows s table → ∃ e ∈ file.link.entityList, e.NamesLeast) := by
  have hids : (file.link.entityList.map (·.id)).Nodup := by
    rw [link_ids]
    exact hfile.nodup
  -- The size of the batches changes neither the work nor what is made of its results.
  refine ⟨fun hnone => ⟨file.link.extraction s table, file.link.extraction_complete hids, ?_⟩, ?_,
    LinkedModel.exists_namesLeast⟩
  · intro size cancelled p
    have hnone : ¬ file.link.Overflows { s with batchSize := size } table := hnone
    exact LinkedModel.extract_runsTo hnone cancelled p
  · intro hover size cancelled p
    have hover : file.link.Overflows { s with batchSize := size } table := hover
    exact LinkedModel.extract_of_overflows hover cancelled p

/-- A file with a line to show, one of a single point, one whose point is missing, and an entity of an
unknown kind. -/
def mixedFile : ExchangeFile :=
  ⟨{}, [⟨1, .cartesianPoint, [.list [.integer 0, .integer 0]]⟩,
      ⟨2, .cartesianPoint, [.list [.integer 1, .integer 0]]⟩,
      ⟨3, .polyline, [.list [.ref 1, .ref 2]]⟩,
      ⟨4, .polyline, [.list [.ref 1]]⟩,
      ⟨5, .polyline, [.list [.ref 1, .ref 9]]⟩,
      ⟨6, .other "SKETCH", []⟩].foldl EntityTable.push {}, .empty 50⟩

/-- The entities of the linked file. -/
lemma mixedFile_entities : mixedFile.link.entities =
    #[⟨1, .cartesianPoint, [.list [.integer 0, .integer 0]]⟩,
      ⟨2, .cartesianPoint, [.list [.integer 1, .integer 0]]⟩,
      ⟨3, .polyline, [.list [.link 0, .link 1]]⟩,
      ⟨4, .polyline, [.list [.link 0]]⟩,
      ⟨5, .polyline, [.list [.link 0, .dangling 9]]⟩,
      ⟨6, .other "SKETCH", []⟩] := by
  simp [mixedFile, link, EntityTable.push, Entity.link, Value.linkAll, Value.link,
    EntityTable.position?, Std.HashMap.getElem_insert]

open LinkedModel

/-- No line of the file overflows, since none has numbers. -/
lemma mixedFile_not_overflows : ¬ mixedFile.link.Overflows .standard .standard := by
  apply not_overflows_of_tame MethodTable.known_standard
  simp [Tame, entityList, mixedFile_entities, LinkedEntity.NamesLeast]

/-- The extraction of the mixed file is complete. -/
theorem extract_complete_mixedFile : mixedFile.table.Sound ∧ ¬ mixedFile.link.Overflows .standard .standard ∧
    ∃ x : Extraction, x.Complete mixedFile.link .standard .standard ∧ ∀ size cancelled p,
      mixedFile.link.RunsTo { ExtractionSettings.standard with batchSize := size } .standard cancelled p x := by
  have hsound : mixedFile.table.Sound := EntityTable.sound_empty.pushAll _ (by decide)
  obtain ⟨hcomplete, -⟩ := extract_complete mixedFile hsound .standard .standard
  exact ⟨hsound, mixedFile_not_overflows, hcomplete mixedFile_not_overflows⟩

/-- A point, and a curve with the least number of 64 bits. -/
def overflowingEntities : List Entity :=
  [⟨1, .cartesianPointList2D, [.list [.list [.integer 0, .integer 0]]]⟩,
    ⟨2, .indexedPolyCurve, [.ref 1, .list [.typed "IFCLINEINDEX" [.list [.integer Int64.minValue]]]]⟩]

/-- The entities of every linked file that has these. -/
lemma link_entities_of_overflowing {file : ExchangeFile} (hfile : file.table.Sound)
    (h : file.table.entities = overflowingEntities.toArray) : file.link.entities =
    #[⟨1, .cartesianPointList2D, [.list [.list [.integer 0, .integer 0]]]⟩,
      ⟨2, .indexedPolyCurve, [.link 0, .list [.typed "IFCLINEINDEX" [.list [.integer Int64.minValue]]]]⟩] := by
  have hplace : file.table.position? 1 = some 0 := by
    rw [hfile, h]
    rfl
  simp [link, h, overflowingEntities, Entity.link, Value.linkAll, Value.link, hplace]

/-- In every file that has these entities the curve overflows. -/
lemma overflows_of_overflowing {file : ExchangeFile} (hfile : file.table.Sound)
    (h : file.table.entities = overflowingEntities.toArray) : file.link.Overflows .standard .standard := by
  have hentities := link_entities_of_overflowing hfile h
  have hconsumed : file.link.consumed = consumedBy file.link.entities := rfl
  have hcandidates : file.link.candidates = [1] := by
    simp only [candidates, placed, entityList, isConsumed, hconsumed, hentities]
    rfl
  have hstatus : file.link.statusOf 1 = .ok := by
    rw [ExchangeFile.link_statusOf, LinkedModel.references, hentities]
    cbv
  generalize file.link = m at hcandidates hstatus hentities
  refine ⟨1, hcandidates ▸ List.mem_singleton_self 1, ?_⟩
  obtain ⟨header, entities, index, status, consumed, log⟩ := m
  cases hentities
  exact ⟨_, _, rfl, rfl, hstatus, rfl⟩

def overflowingFile : ExchangeFile := ⟨{}, overflowingEntities.foldl EntityTable.push {}, .empty 50⟩

/-- A run that nobody cancels gives no extraction of this file. -/
theorem extract_overflowingFile : overflowingFile.table.Sound ∧ ∀ size p,
    (overflowingFile.link.extract { ExtractionSettings.standard with batchSize := size } .standard .never p).1 =
      .error .overflow := by
  have hsound : overflowingFile.table.Sound := EntityTable.sound_empty.pushAll _ (by decide)
  refine ⟨hsound, ?_⟩
  intro size p
  have hover : overflowingFile.link.Overflows { ExtractionSettings.standard with batchSize := size } .standard :=
    overflows_of_overflowing hsound rfl
  rcases extract_of_overflows hover .never p with hrun | ⟨⟨look, hlook⟩, -⟩
  · exact hrun
  · cases hlook

end ExchangeFile

end BuildingModel
