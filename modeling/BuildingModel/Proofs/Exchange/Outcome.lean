import BuildingModel.Proofs.Exchange.RoundTrip
import BuildingModel.Proofs.Exchange.Grammar
import BuildingModel.Proofs.Exchange.Table
import BuildingModel.Proofs.ProblemLog

/-!
# What becomes of a statement

`Comes before st outcome` says what becomes of the statement `st` after the statements `before`: it is a
keyword, it opens a data section, it is a record of the header, it becomes an entity, or it leaves one
problem behind. Each statement has exactly one outcome (`exists_comes`, `Comes.unique`), and the outcomes
of all statements make up the file: its entities, its header and its problems, each in their order
(`exists_recorded`).
-/

namespace BuildingModel.Exchange

open Text

/-- What can become of a statement. -/
inductive Outcome where
  | keyword
  | dataSection
  | headerRecord (record : HeaderRecord)
  | entity (raw : RawInstance)
  | problem (p : Problem)

namespace Outcome

def record? : Outcome → Option HeaderRecord
  | .headerRecord record => some record
  | _ => none

def entity? : Outcome → Option Entity
  | .entity raw => some raw.entity
  | _ => none

def problem? : Outcome → Option Problem
  | .problem p => some p
  | _ => none

end Outcome

/-- The keywords that have a meaning. -/
def knownKeywords : List String := ["ISO-10303-21", "HEADER", "DATA", "ENDSEC"]

/-- The section that is open after a statement. -/
def sectionAfter (here : Option Section) (st : Statement) : Option Section :=
  match st.keyword? with
  | some word =>
    if String.ofList word = "HEADER" then some .header
    else if String.ofList word = "DATA" then some .data
    else if String.ofList word = "ENDSEC" then none
    else here
  | none => if here = none ∧ opensParameterisedData st then some .data else here

/-- The section in which the statement after the statements `before` stands. -/
def sectionOf (before : List Statement) : Option Section := before.foldl sectionAfter none

/-- A statement of a data section that ends with a semicolon and is read as an instance. -/
structure Instantiates (before : List Statement) (st : Statement) (raw : RawInstance) : Prop where
  inData : sectionOf before = some .data
  terminated : st.terminated = true
  reads : RawInstance.parse st.text st.offset = .ok raw

/-- Some statement is an instance with a number. -/
def Defined (sts : List Statement) (id : EntityId) : Prop :=
  ∃ before st after, sts = before ++ st :: after ∧ ∃ raw, Instantiates before st raw ∧ raw.id = id

/-- What becomes of a statement that is no keyword and stands in a section, or in none. -/
inductive ComesIn (before : List Statement) (st : Statement) : Option Section → Outcome → Prop where
  | dataSection :
    opensParameterisedData st = true →
    ComesIn before st none .dataSection
  | outside :
    opensParameterisedData st = false →
    ComesIn before st none (.problem ⟨.entityParse, leadingId st.text,
      s!"statement outside any section at byte {st.offset}"⟩)
  | record {record : HeaderRecord} :
    HeaderRecord.parse st.text st.offset = .ok record →
    ComesIn before st (some .header) (.headerRecord record)
  | badRecord {e : SyntaxError} :
    HeaderRecord.parse st.text st.offset = .error e →
    ComesIn before st (some .header) (.problem ⟨.header, none, (ReadError.ofSyntax e).message⟩)
  | entity {raw : RawInstance} :
    st.terminated = true →
    RawInstance.parse st.text st.offset = .ok raw →
    ¬ Defined before raw.id →
    ComesIn before st (some .data) (.entity raw)
  | duplicate {raw : RawInstance} :
    st.terminated = true →
    RawInstance.parse st.text st.offset = .ok raw →
    Defined before raw.id →
    ComesIn before st (some .data) (.problem ⟨.duplicateEntity, some raw.id,
      (ReadError.duplicateEntity raw.id).message⟩)
  | unreadable {e : SyntaxError} :
    st.terminated = true →
    RawInstance.parse st.text st.offset = .error e →
    ComesIn before st (some .data) (.problem ⟨.entityParse, leadingId st.text,
      (ReadError.ofSyntax e).message⟩)
  | unterminated :
    st.terminated = false →
    ComesIn before st (some .data) (.problem ⟨.entityParse, leadingId st.text,
      s!"unterminated statement at byte {st.offset}"⟩)

/-- What becomes of a statement after the statements `before`. -/
inductive Comes (before : List Statement) (st : Statement) : Outcome → Prop where
  | keyword {word : List Char} :
    st.keyword? = some word →
    String.ofList word ∈ knownKeywords →
    Comes before st .keyword
  | strangeKeyword {word : List Char} :
    st.keyword? = some word →
    String.ofList word ∉ knownKeywords →
    Comes before st (.problem ⟨.entityParse, none,
      s!"unexpected keyword `{String.ofList word}` at byte {st.offset}"⟩)
  | plain {outcome : Outcome} :
    st.keyword? = none →
    ComesIn before st (sectionOf before) outcome →
    Comes before st outcome

/-- What becomes of several statements, one after the other. -/
inductive ComesAll : List Statement → List Outcome → Prop where
  | nil : ComesAll [] []
  | snoc {sts : List Statement} {outcomes : List Outcome} {st : Statement} {outcome : Outcome} :
    ComesAll sts outcomes →
    Comes sts st outcome →
    ComesAll (sts ++ [st]) (outcomes ++ [outcome])

/-! ## One outcome for each statement -/

variable {before sts : List Statement} {st : Statement} {here : Option Section} {f f' : Outcome}
  {fs fs' : List Outcome} {raw : RawInstance} {id : EntityId}

/-- One thing becomes of a statement in a section. -/
lemma ComesIn.unique (h : ComesIn before st here f) (h' : ComesIn before st here f') : f = f' := by
  cases h with
  | dataSection hopens =>
    cases h' with
    | dataSection => rfl
    | outside hopens' => cases hopens.symm.trans hopens'
  | outside hopens =>
    cases h' with
    | dataSection hopens' => cases hopens.symm.trans hopens'
    | outside => rfl
  | record hparse =>
    cases h' with
    | record hparse' =>
      cases hparse.symm.trans hparse'
      rfl
    | badRecord hparse' => cases hparse.symm.trans hparse'
  | badRecord hparse =>
    cases h' with
    | record hparse' => cases hparse.symm.trans hparse'
    | badRecord hparse' =>
      cases hparse.symm.trans hparse'
      rfl
  | entity hend hparse hnew =>
    cases h' with
    | entity _ hparse' =>
      cases hparse.symm.trans hparse'
      rfl
    | duplicate _ hparse' hold =>
      cases hparse.symm.trans hparse'
      exact absurd hold hnew
    | unreadable _ hparse' => cases hparse.symm.trans hparse'
    | unterminated hopen => cases hend.symm.trans hopen
  | duplicate hend hparse hold =>
    cases h' with
    | entity _ hparse' hnew =>
      cases hparse.symm.trans hparse'
      exact absurd hold hnew
    | duplicate _ hparse' =>
      cases hparse.symm.trans hparse'
      rfl
    | unreadable _ hparse' => cases hparse.symm.trans hparse'
    | unterminated hopen => cases hend.symm.trans hopen
  | unreadable hend hparse =>
    cases h' with
    | entity _ hparse' => cases hparse.symm.trans hparse'
    | duplicate _ hparse' => cases hparse.symm.trans hparse'
    | unreadable _ hparse' =>
      cases hparse.symm.trans hparse'
      rfl
    | unterminated hopen => cases hend.symm.trans hopen
  | unterminated hopen =>
    cases h' with
    | entity hend => cases hend.symm.trans hopen
    | duplicate hend => cases hend.symm.trans hopen
    | unreadable hend => cases hend.symm.trans hopen
    | unterminated => rfl

/-- One thing becomes of a statement after those before it. -/
lemma Comes.unique (h : Comes before st f) (h' : Comes before st f') : f = f' := by
  cases h with
  | keyword hword hknown =>
    cases h' with
    | keyword => rfl
    | strangeKeyword hword' hstrange =>
      cases hword.symm.trans hword'
      exact absurd hknown hstrange
    | plain hnone => cases hword.symm.trans hnone
  | strangeKeyword hword hstrange =>
    cases h' with
    | keyword hword' hknown =>
      cases hword.symm.trans hword'
      exact absurd hknown hstrange
    | strangeKeyword hword' =>
      cases hword.symm.trans hword'
      rfl
    | plain hnone => cases hword.symm.trans hnone
  | plain hnone hin =>
    cases h' with
    | keyword hword => cases hword.symm.trans hnone
    | strangeKeyword hword => cases hword.symm.trans hnone
    | plain _ hin' => exact hin.unique hin'

/-- Something becomes of every statement in every section. -/
lemma exists_comesIn (before : List Statement) (st : Statement) (here : Option Section) :
    ∃ f, ComesIn before st here f := by
  rcases here with _ | _ | _
  · cases hopens : opensParameterisedData st with
    | true => exact ⟨_, .dataSection hopens⟩
    | false => exact ⟨_, .outside hopens⟩
  · cases hparse : HeaderRecord.parse st.text st.offset with
    | ok record => exact ⟨_, .record hparse⟩
    | error e => exact ⟨_, .badRecord hparse⟩
  · cases hend : st.terminated with
    | false => exact ⟨_, .unterminated hend⟩
    | true =>
      cases hparse : RawInstance.parse st.text st.offset with
      | error e => exact ⟨_, .unreadable hend hparse⟩
      | ok raw =>
        by_cases hdefined : Defined before raw.id
        · exact ⟨_, .duplicate hend hparse hdefined⟩
        · exact ⟨_, .entity hend hparse hdefined⟩

/-- Something becomes of every statement. -/
lemma exists_comes (before : List Statement) (st : Statement) : ∃ f, Comes before st f := by
  cases hword : st.keyword? with
  | none =>
    obtain ⟨f, hin⟩ := exists_comesIn before st (sectionOf before)
    exact ⟨f, .plain hword hin⟩
  | some word =>
    by_cases hknown : String.ofList word ∈ knownKeywords
    · exact ⟨_, .keyword hword hknown⟩
    · exact ⟨_, .strangeKeyword hword hknown⟩

/-- Hence the outcomes of several statements are determined. -/
lemma ComesAll.unique (h : ComesAll sts fs) (h' : ComesAll sts fs') : fs = fs' := by
  induction h generalizing fs' with
  | nil =>
    generalize hsts : ([] : List Statement) = sts at h'
    cases h' with
    | nil => rfl
    | snoc => simp at hsts
  | @snoc sts fs st f hall hcomes ih =>
    generalize hsts : sts ++ [st] = all at h'
    cases h' with
    | nil => simp at hsts
    | snoc hall' hcomes' =>
      obtain ⟨rfl, hst⟩ := List.append_inj' hsts rfl
      cases hst
      rw [ih hall', hcomes.unique hcomes']

/-! ## Numbers that have been defined -/

/-- An instance has a hash sign. -/
lemma InstanceText.hash_mem {raw : RawInstance} {t : List Char} (ht : InstanceText raw t) : '#' ∈ t := by
  cases ht
  simp

/-- An instance is no keyword, because of its hash. -/
lemma Instantiates.keyword?_eq_none (hi : Instantiates before st raw) : st.keyword? = none := by
  have hmem := (parse_eq_ok_iff.mp hi.reads).hash_mem
  have hhash : '#' ∈ trim st.text := mem_trimEnd (mem_skipBlanks hmem rfl) rfl
  rw [Statement.keyword?]
  split
  · rename_i front heq
    have hfront : '#' ∈ front.reverse := by
      rw [← List.mem_reverse, heq, List.mem_cons] at hhash
      rcases hhash with h | h
      · cases h
      · exact List.mem_reverse.mpr h
    rw [if_neg]
    rintro ⟨-, hall⟩
    exact absurd (List.all_eq_true.mp hall _ (mem_trimEnd hfront rfl)) (by decide)
  · rfl

/-- In a list with one more member a member is the new one, or it has been there before. -/
lemma exists_split_snoc_iff {P : List Statement → Statement → Prop} :
    (∃ before st' after, sts ++ [st] = before ++ st' :: after ∧ P before st') ↔
      (∃ before st' after, sts = before ++ st' :: after ∧ P before st') ∨ P sts st := by
  constructor
  · rintro ⟨before, st', after, hsplit, hP⟩
    rcases List.eq_nil_or_concat after with rfl | ⟨after, last, rfl⟩
    · obtain ⟨rfl, hst⟩ := List.append_inj' hsplit rfl
      cases hst
      exact .inr hP
    · rw [List.concat_eq_append, ← List.cons_append, ← List.append_assoc] at hsplit
      obtain ⟨rfl, -⟩ := List.append_inj' hsplit rfl
      exact .inl ⟨before, st', after, rfl, hP⟩
  · rintro (⟨before, st', after, rfl, hP⟩ | hP)
    · exact ⟨before, st', after ++ [st], by simp, hP⟩
    · exact ⟨sts, st, [], rfl, hP⟩

/-- Before all statements nothing is defined. -/
lemma not_defined_nil : ¬ Defined [] id := by
  rintro ⟨before, st, after, hsplit, -⟩
  simp at hsplit

/-- An entity becomes of an instance whose number is new. -/
lemma comes_entity_iff :
    Comes before st (.entity raw) ↔ Instantiates before st raw ∧ ¬ Defined before raw.id := by
  constructor
  · intro h
    cases h with
    | plain _ hin =>
      generalize hhere : sectionOf before = here at hin
      cases hin with
      | entity hend hparse hnew => exact ⟨⟨hhere, hend, hparse⟩, hnew⟩
  · rintro ⟨hi, hnew⟩
    refine .plain hi.keyword?_eq_none ?_
    rw [hi.inData]
    exact .entity hi.terminated hi.reads hnew

/-- A number becomes defined by the statement that becomes its entity. -/
lemma Comes.defined_iff (h : Comes sts st f) :
    Defined (sts ++ [st]) id ↔ Defined sts id ∨ ∃ raw, f = .entity raw ∧ raw.id = id := by
  rw [Defined, exists_split_snoc_iff, ← Defined]
  constructor
  · rintro (hold | ⟨raw, hi, rfl⟩)
    · exact .inl hold
    · by_cases hold : Defined sts raw.id
      · exact .inl hold
      · exact .inr ⟨raw, h.unique (comes_entity_iff.mpr ⟨hi, hold⟩), rfl⟩
  · rintro (hold | ⟨raw, rfl, rfl⟩)
    · exact .inl hold
    · exact .inr ⟨raw, (comes_entity_iff.mp h).1, rfl⟩

/-! ## What reading a statement does -/

variable {p p' : ReadState} {limit : Nat}

/-- Entities, records and problems leave the section open. -/
lemma here_apply_entity (p : ReadState) (raw : RawInstance) : (p.apply (.entity raw)).here = p.here := by
  rw [ReadState.apply]
  split <;> rfl

/-- The open section follows from the statement. -/
lemma here_step (p : ReadState) (st : Statement) : (p.step st).here = sectionAfter p.here st := by
  rw [ReadState.step, Statement.act.eq_def, sectionAfter]
  cases st.keyword? with
  | some word =>
    simp only [keywordAct, statementProblem]
    by_cases hsignature : String.ofList word = "ISO-10303-21"
    · rw [if_pos hsignature, if_neg, if_neg, if_neg] <;> first | rfl | simp [hsignature]
    · rw [if_neg hsignature]
      split
      · rfl
      · split
        · rfl
        · split <;> rfl
  | none =>
    rcases hhere : p.here with _ | _ | _
    · simp only [true_and]
      split
      · rfl
      · exact hhere
    · simp only [reduceCtorEq, false_and, if_false, headerAct]
      split <;> exact hhere
    · simp only [reduceCtorEq, false_and, if_false, dataAct]
      split
      · split
        · rw [here_apply_entity, hhere]
        · exact hhere
      · exact hhere

/-- A keyword does what it stands for. -/
lemma step_of_keyword {word : List Char} (hword : st.keyword? = some word) :
    p.step st = p.apply (keywordAct st (String.ofList word)) := by
  rw [ReadState.step, Statement.act.eq_def, hword]

/-- The state `p'` is the state `p` after a statement with an outcome. -/
structure Took (p : ReadState) (f : Outcome) (p' : ReadState) : Prop where
  table : p'.table = f.entity?.elim p.table p.table.push
  header : p'.header = f.record?.elim p.header p.header.apply
  log : p'.log = f.problem?.elim p.log p.log.push

/-- A problem is added to the log. -/
lemma took_problem (p : ReadState) (q : Problem) : Took p (.problem q) (p.apply (.problem q)) :=
  ⟨rfl, rfl, rfl⟩

/-- A statement in a section does to the state what its outcome says. -/
lemma ComesIn.took (h : ComesIn sts st p.here f) (hnone : st.keyword? = none)
    (hdefined : ∀ id, p.table.contains id = true ↔ Defined sts id) : Took p f (p.step st) := by
  generalize hhere : p.here = here at h
  rw [ReadState.step, hhere, Statement.act.eq_def, hnone]
  cases h with
  | dataSection hopens =>
    simp only [if_pos hopens]
    exact ⟨rfl, rfl, rfl⟩
  | outside hopens =>
    simp only [hopens, Bool.false_eq_true, if_false]
    exact took_problem p _
  | record hparse =>
    simp only [headerAct, hparse]
    exact ⟨rfl, rfl, rfl⟩
  | badRecord hparse =>
    simp only [headerAct, hparse]
    exact took_problem p _
  | @entity raw hend hparse hnew =>
    simp only [dataAct, hend, if_true, hparse]
    rw [ReadState.apply, if_neg fun h => hnew ((hdefined raw.id).mp h)]
    exact ⟨rfl, rfl, rfl⟩
  | @duplicate raw hend hparse hold =>
    simp only [dataAct, hend, if_true, hparse]
    rw [ReadState.apply, if_pos ((hdefined raw.id).mpr hold)]
    exact took_problem p _
  | unreadable hend hparse =>
    simp only [dataAct, hend, if_true, hparse]
    exact took_problem p _
  | unterminated hopen =>
    simp only [dataAct, hopen, Bool.false_eq_true, if_false]
    exact took_problem p _

/-- So does every statement. -/
lemma Comes.took (h : Comes sts st f) (hhere : p.here = sectionOf sts)
    (hdefined : ∀ id, p.table.contains id = true ↔ Defined sts id) : Took p f (p.step st) := by
  cases h with
  | keyword hword hknown =>
    rw [step_of_keyword hword]
    simp only [knownKeywords, List.mem_cons, List.not_mem_nil, or_false] at hknown
    rcases hknown with h | h | h | h <;> rw [h] <;> exact ⟨rfl, rfl, rfl⟩
  | strangeKeyword hword hstrange =>
    rw [step_of_keyword hword]
    simp only [knownKeywords, List.mem_cons, List.not_mem_nil, or_false, not_or] at hstrange
    obtain ⟨h1, h2, h3, h4⟩ := hstrange
    simp only [keywordAct, if_neg h1, if_neg h2, if_neg h3, if_neg h4]
    exact took_problem p _
  | plain hnone hin =>
    rw [← hhere] at hin
    exact hin.took hnone hdefined

/-! ## What a file holds -/

/-- A state of reading is made up of the outcomes of the statements read so far. -/
structure Recorded (limit : Nat) (sts : List Statement) (fs : List Outcome) (p : ReadState) : Prop where
  here : p.here = sectionOf sts
  sound : p.table.Sound
  defined : ∀ id, p.table.contains id = true ↔ Defined sts id
  entities : p.table.entities.toList = fs.filterMap (·.entity?)
  header : p.header = (fs.filterMap (·.record?)).foldl FileHeader.apply {}
  log : p.log = (ProblemLog.empty limit).pushAll (fs.filterMap (·.problem?))

/-- At the start nothing has been read. -/
lemma Recorded.start (limit : Nat) : Recorded limit [] [] { log := .empty limit } where
  here := rfl
  sound := EntityTable.sound_empty
  defined id := by
    constructor
    · intro h
      cases (Std.HashMap.contains_empty (a := id)).symm.trans h
    · intro h
      exact absurd h not_defined_nil
  entities := rfl
  header := rfl
  log := rfl

/-- One more statement adds its outcome. -/
lemma Recorded.step (hr : Recorded limit sts fs p) (hc : Comes sts st f) :
    Recorded limit (sts ++ [st]) (fs ++ [f]) (p.step st) := by
  have htook := hc.took hr.here hr.defined
  refine ⟨?_, ?_, ?_, ?_, ?_, ?_⟩
  · rw [here_step, hr.here, sectionOf, sectionOf, List.foldl_append, List.foldl_cons, List.foldl_nil]
  · rw [htook.table]
    cases f with
    | entity raw =>
      have hnew : p.table.contains raw.id = false := by
        rw [← Bool.not_eq_true, hr.defined]
        exact (comes_entity_iff.mp hc).2
      exact hr.sound.push hnew
    | keyword | dataSection | headerRecord | problem => exact hr.sound
  · intro id
    rw [hc.defined_iff, ← hr.defined id, htook.table]
    cases f with
    | entity raw =>
      simp only [Outcome.entity?, Option.elim_some, EntityTable.contains_push, Bool.or_eq_true, beq_iff_eq,
        Outcome.entity.injEq, exists_eq_left']
      exact or_comm
    | keyword | dataSection | headerRecord | problem => simp [Outcome.entity?]
  · rw [htook.table, List.filterMap_append, ← hr.entities]
    cases f with
    | entity raw => simp [Outcome.entity?, EntityTable.push]
    | keyword | dataSection | headerRecord | problem => simp [Outcome.entity?]
  · rw [htook.header, List.filterMap_append, List.foldl_append, ← hr.header]
    cases f with
    | headerRecord record => simp [Outcome.record?]
    | keyword | dataSection | entity | problem => simp [Outcome.record?]
  · rw [htook.log, List.filterMap_append, ProblemLog.pushAll_append, ← hr.log]
    cases f with
    | problem q => rfl
    | keyword | dataSection | headerRecord | entity => rfl

/-- Reading records the outcomes of all statements. -/
theorem exists_recorded (limit : Nat) (sts : List Statement) :
    ∃ fs, ComesAll sts fs ∧ Recorded limit sts fs (sts.foldl ReadState.step { log := .empty limit }) := by
  induction sts using List.reverseRecOn with
  | nil => exact ⟨[], .nil, .start limit⟩
  | append_singleton sts st ih =>
    obtain ⟨fs, hall, hr⟩ := ih
    obtain ⟨f, hc⟩ := exists_comes sts st
    refine ⟨fs ++ [f], .snoc hall hc, ?_⟩
    rw [List.foldl_append, List.foldl_cons, List.foldl_nil]
    exact hr.step hc

/-- There is one outcome for each statement. -/
lemma ComesAll.length_eq (h : ComesAll sts fs) : fs.length = sts.length := by
  induction h with
  | nil => rfl
  | snoc _ _ ih => rw [List.length_append, List.length_append, ih, List.length_singleton, List.length_singleton]

/-- The instances that become entities are those whose number is new. -/
lemma ComesAll.entity_mem_iff (h : ComesAll sts fs) :
    .entity raw ∈ fs ↔
      ∃ before st after, sts = before ++ st :: after ∧ Instantiates before st raw ∧ ¬ Defined before raw.id := by
  induction h with
  | nil => simp
  | @snoc sts fs st f hall hc ih =>
    rw [List.mem_append, ih, List.mem_singleton, exists_split_snoc_iff, ← comes_entity_iff]
    refine or_congr_right ⟨?_, ?_⟩
    · rintro rfl
      exact hc
    · intro hentity
      exact hentity.unique hc

end BuildingModel.Exchange

namespace BuildingModel

open Exchange

/-- All statements of a text are accounted for in the file: each of them has one outcome, and the outcomes
are what the file holds. An entity is that of the first instance with its number. Problems are counted in 64
bits. -/
structure ExchangeFile.Accounts (file : ExchangeFile) (text : List Char) (limit : Nat) : Prop where
  distinct : (file.entities.map (·.id)).Nodup
  contains_iff : ∀ id, file.contains id = true ↔ id ∈ file.entities.map (·.id)
  get?_eq : ∀ id, file.get? id = file.entities.find? (·.id == id)
  get?_eq_some_iff : ∀ id e, file.get? id = some e ↔
    ∃ before st after, fileStatements text = before ++ st :: after ∧
      ∃ raw, Instantiates before st raw ∧ ¬ Defined before id ∧ raw.id = id ∧ raw.entity = e
  outcomes : ∃ fs, (∀ fs', ComesAll (fileStatements text) fs' ↔ fs' = fs) ∧
    fs.length = (fileStatements text).length ∧
    file.entities = fs.filterMap (·.entity?) ∧
    file.header = (fs.filterMap (·.record?)).foldl FileHeader.apply {} ∧
    file.log = (ProblemLog.empty limit).pushAll (fs.filterMap (·.problem?)) ∧
    file.log.total = .ofNat (fs.countP (·.problem?.isSome))

/-- A file is what the last state of reading holds. -/
lemma ExchangeFile.parse_eq_ok {text : List Char} {limit : Nat} {file : ExchangeFile}
    (hparse : ExchangeFile.parse text limit = .ok file) :
    file = ⟨(readStatements text limit).header, (readStatements text limit).table,
      (readStatements text limit).log⟩ := by
  simp only [ExchangeFile.parse] at hparse
  split at hparse
  · cases hparse
    rfl
  · split at hparse <;> cases hparse

/-- The table of a file that is read is sound. -/
lemma ExchangeFile.sound_parse {text : List Char} {limit : Nat} {file : ExchangeFile}
    (hparse : ExchangeFile.parse text limit = .ok file) : file.table.Sound := by
  obtain ⟨fs, -, hr⟩ := exists_recorded limit (fileStatements text)
  cases parse_eq_ok hparse
  exact hr.sound

/-- Every file that is read accounts for its text. -/
theorem ExchangeFile.parse_accounts (text : List Char) (limit : Nat) (file : ExchangeFile)
    (hparse : ExchangeFile.parse text limit = .ok file) : file.Accounts text limit := by
  obtain ⟨fs, hall, hr⟩ := exists_recorded limit (fileStatements text)
  rw [← readStatements] at hr
  cases parse_eq_ok hparse
  have hentities : ∀ e, e ∈ (readStatements text limit).table.entities.toList ↔
      ∃ raw, .entity raw ∈ fs ∧ raw.entity = e := by
    intro e
    rw [hr.entities, List.mem_filterMap]
    constructor
    · rintro ⟨f, hf, he⟩
      cases f with
      | entity raw => exact ⟨raw, hf, Option.some.inj he⟩
      | keyword | dataSection | headerRecord | problem => cases he
    · rintro ⟨raw, hraw, rfl⟩
      exact ⟨.entity raw, hraw, rfl⟩
  refine ⟨hr.sound.nodup, fun id => hr.sound.contains_iff, hr.sound.get?_eq_find?, ?_, ?_⟩
  · intro id e
    rw [ExchangeFile.get?, hr.sound.get?_eq_some_iff, hentities]
    constructor
    · rintro ⟨⟨raw, hraw, rfl⟩, rfl⟩
      obtain ⟨before, st, after, hsplit, hi, hnew⟩ := hall.entity_mem_iff.mp hraw
      exact ⟨before, st, after, hsplit, raw, hi, hnew, rfl, rfl⟩
    · rintro ⟨before, st, after, hsplit, raw, hi, hnew, rfl, rfl⟩
      exact ⟨⟨raw, hall.entity_mem_iff.mpr ⟨before, st, after, hsplit, hi, hnew⟩, rfl⟩, rfl⟩
  · refine ⟨fs, ?_, hall.length_eq, hr.entities, hr.header, hr.log, ?_⟩
    · intro fs'
      constructor
      · intro hall'
        exact hall'.unique hall
      · rintro rfl
        exact hall
    · rw [hr.log, ProblemLog.total_pushAll, ProblemLog.total_empty, UInt64.zero_add,
        List.length_filterMap_eq_countP]

/-- A data section that has been seen stays seen. -/
lemma Exchange.ReadState.hasData_apply {p : ReadState} (hdata : p.hasData = true) (act : Act) :
    (p.apply act).hasData = true := by
  cases act with
  | entity raw =>
    rw [ReadState.apply]
    split <;> exact hdata
  | openData => rfl
  | signature | openHeader | closeSection | headerRecord | problem => exact hdata

/-- It stays seen through all statements. -/
lemma Exchange.ReadState.hasData_run {p : ReadState} (hdata : p.hasData = true) (here : Cursor) :
    (p.run here).hasData = true := by
  rw [ReadState.run]
  induction (here.statements.map (·.1)).takeWhile (!·.endsFile) generalizing p with
  | nil => exact hdata
  | cons st sts ih => exact ih (ReadState.hasData_apply hdata _)

/-- A file with all that can become of a statement. -/
def mixedText : List Char :=
  keywordLine "ISO-10303-21" (keywordLine "DATA"
    "#1=A();#1=B(#2);#2=;X;HEADER;FILE_NAME('a');FILE_NAME(;ENDSEC;#9=A();DATA('x');#3=C(".toList)

/-- The mixed file is read, and all its statements are accounted for. -/
theorem ExchangeFile.parse_accounts_mixedText :
    ∃ file, ExchangeFile.parse mixedText 2 = .ok file ∧ file.Accounts mixedText 2 := by
  have hdata : (readStatements mixedText 2).hasData = true := by
    obtain ⟨first, hopened⟩ := run_opening 2
      "#1=A();#1=B(#2);#2=;X;HEADER;FILE_NAME('a');FILE_NAME(;ENDSEC;#9=A();DATA('x');#3=C(".toList
    rw [readStatements_eq, mixedText, hopened]
    exact ReadState.hasData_run rfl _
  have hparse : ExchangeFile.parse mixedText 2 = .ok ⟨(readStatements mixedText 2).header,
      (readStatements mixedText 2).table, (readStatements mixedText 2).log⟩ := by
    rw [ExchangeFile.parse]
    exact if_pos hdata
  exact ⟨_, hparse, ExchangeFile.parse_accounts mixedText 2 _ hparse⟩

end BuildingModel
