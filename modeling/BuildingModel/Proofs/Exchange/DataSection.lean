import BuildingModel.Proofs.Exchange.Boundary
import BuildingModel.Proofs.Exchange.Outcome
import BuildingModel.Proofs.Exchange.Partition

/-!
# What makes a text an exchange file

A text is read as a file exactly if some statement opens a data section. The keyword `DATA;` does so anywhere,
and a heading `DATA(…);` with parameters does so outside of all sections (`HasDataSection`). Only the first four
letters of a heading are looked at, however, so that any other statement that stands outside of all sections and
begins with them opens a data section too (`HasLookAlike`): a text about a database is a file without entities.
-/

namespace BuildingModel.Exchange

open Text

/-! ## Keywords -/

/-- The text of a keyword: a word and a semicolon. -/
inductive KeywordText (word : List Char) : List Char → Prop where
  | intro {b b₁ b₂} (ne_nil : word ≠ []) (isKeywordChar : ∀ c ∈ word, isKeywordChar c = true) (hb : Blanks b)
      (hb₁ : Blanks b₁) (hb₂ : Blanks b₂) :
      KeywordText word (b ++ (word ++ (b₁ ++ ';' :: b₂)))

/-- White space after a word is trimmed. -/
lemma trimEnd_word {w b : List Char} (hne : w ≠ []) (hw : ∀ c ∈ w, isKeywordChar c = true) (hb : Blanks b) :
    trimEnd (w ++ b) = w := by
  rw [trimEnd_append_blanks w hb, ← List.dropLast_append_getLast hne]
  exact trimEnd_append_singleton _ (isBlank_of_isKeywordChar (hw _ (List.getLast_mem hne)))

/-- The keyword of a statement is the word that its text consists of. -/
theorem keyword?_eq_some_iff {st : Statement} {w : List Char} :
    st.keyword? = some w ↔ KeywordText w st.text := by
  constructor
  · intro h
    rw [Statement.keyword?] at h
    split at h
    · rename_i front heq
      simp only [Option.ite_none_right_eq_some, Option.some.injEq] at h
      obtain ⟨hword, rfl⟩ := h
      obtain ⟨b, hb, htext⟩ := exists_blanks st.text
      obtain ⟨b₂, hb₂, hend⟩ := exists_trimEnd (skipBlanks st.text)
      obtain ⟨b₁, hb₁, hfront⟩ := exists_trimEnd front.reverse
      have htrim : trimEnd (skipBlanks st.text) = front.reverse ++ [';'] := by
        rw [← List.reverse_inj, List.reverse_append, List.reverse_reverse]
        exact heq
      have hsplit : st.text = b ++ (trimEnd front.reverse ++ (b₁ ++ ';' :: b₂)) := by
        rw [htrim, List.append_assoc, List.singleton_append] at hend
        rw [htext, hend, ← List.append_assoc (trimEnd front.reverse), ← hfront]
      rw [hsplit]
      exact .intro hword.1 (List.all_eq_true.mp hword.2) hb hb₁ hb₂
    · cases h
  · intro htext
    generalize ht : st.text = t at htext
    cases htext with
    | @intro b b₁ b₂ hne hw hb hb₁ hb₂ =>
      have hvisible : Visible w := by
        obtain ⟨c, cs, rfl⟩ := List.exists_cons_of_ne_nil hne
        exact ⟨c, cs, rfl, isBlank_of_isKeywordChar (hw c List.mem_cons_self)⟩
      have hsplit : w ++ (b₁ ++ ';' :: b₂) = ((w ++ b₁) ++ [';']) ++ b₂ := by simp
      have htrim : trim st.text = (w ++ b₁) ++ [';'] := by
        rw [ht, trim, hvisible.skipBlanks_blanks hb, hsplit, trimEnd_append_blanks _ hb₂,
          trimEnd_append_singleton _ rfl]
      rw [Statement.keyword?, htrim, List.reverse_append, List.reverse_singleton, List.singleton_append]
      simp only [List.reverse_reverse]
      rw [trimEnd_word hne hw hb₁, if_pos ⟨hne, List.all_eq_true.mpr hw⟩]

/-- A visible character that belongs to no word keeps a statement from being a keyword. -/
lemma keyword?_eq_none_of_mem {st : Statement} {c : Char} (hc : c ∈ st.text) (hblank : isBlank c = false)
    (hkey : isKeywordChar c = false) (hsemicolon : c ≠ ';') : st.keyword? = none := by
  rw [Option.eq_none_iff_forall_ne_some]
  intro w hw
  have htext := keyword?_eq_some_iff.mp hw
  generalize st.text = t at hc htext
  cases htext with
  | intro _ hword hb hb₁ hb₂ =>
    have blank : ∀ {b : List Char}, Blanks b → c ∉ b := fun hb h => by
      rw [hb c h] at hblank
      cases hblank
    have hnot : c ∉ w := fun h => by
      rw [hword c h] at hkey
      cases hkey
    simp [blank hb, blank hb₁, blank hb₂, hnot, hsemicolon] at hc

/-- A statement is a keyword. -/
def Statement.IsKeyword (st : Statement) (word : String) : Prop := KeywordText word.toList st.text

/-- A statement that is read as a word is the keyword of that word, and no other. -/
lemma isKeyword_iff_of_keyword? {st : Statement} {w : List Char} (hw : st.keyword? = some w) {word : String} :
    st.IsKeyword word ↔ String.ofList w = word := by
  rw [Statement.IsKeyword, ← keyword?_eq_some_iff, hw, Option.some.injEq]
  constructor
  · rintro rfl
    exact String.ofList_toList
  · rintro rfl
    exact String.toList_ofList.symm

/-- A statement that is read as no word is no keyword. -/
lemma not_isKeyword_of_none {st : Statement} (hnone : st.keyword? = none) {word : String} : ¬ st.IsKeyword word := by
  rw [Statement.IsKeyword, ← keyword?_eq_some_iff, hnone]
  intro h
  cases h

/-! ## Sections -/

/-- The heading of a data section with parameters: the word, a bracketed list of values, and a semicolon unless the
statement ends without one. -/
inductive DataHeading : List Char → Prop where
  | closed {params list b b₁ b₂ b₃} (hlist : ListText params list) (hb : Blanks b) (hb₁ : Blanks b₁)
      (hb₂ : Blanks b₂) (hb₃ : Blanks b₃) :
      DataHeading (b ++ ("DATA".toList ++ (b₁ ++ (list ++ (b₂ ++ ';' :: b₃)))))
  | unclosed {params list b b₁ b₂} (hlist : ListText params list) (hb : Blanks b) (hb₁ : Blanks b₁)
      (hb₂ : Blanks b₂) :
      DataHeading (b ++ ("DATA".toList ++ (b₁ ++ (list ++ b₂))))

namespace Statement

/-- A statement that opens a section. -/
def OpensSection (st : Statement) : Prop :=
  st.IsKeyword "HEADER" ∨ st.IsKeyword "DATA" ∨ DataHeading st.text

/-- A statement that is no keyword and begins with the letters of the word. -/
def BeginsData (st : Statement) : Prop :=
  st.keyword? = none ∧ ∃ b r, Blanks b ∧ st.text = b ++ ("DATA".toList ++ r)

/-- A statement that begins like the heading of a data section, but is none. -/
def LooksLikeData (st : Statement) : Prop := st.BeginsData ∧ ¬ DataHeading st.text

end Statement

/-- Every section that has been opened has been closed. -/
def BetweenSections (before : List Statement) : Prop :=
  ∀ earlier st later, before = earlier ++ st :: later → st.OpensSection → ∃ close ∈ later, close.IsKeyword "ENDSEC"

/-- Some statement that counts opens a data section. -/
def HasDataSection (text : List Char) : Prop :=
  ∃ before st after, fileStatements text = before ++ st :: after ∧
    (st.IsKeyword "DATA" ∨ BetweenSections before ∧ DataHeading st.text)

/-- Some statement that counts stands outside of all sections and looks like the heading of a data section. -/
def HasLookAlike (text : List Char) : Prop :=
  ∃ before st after, fileStatements text = before ++ st :: after ∧ BetweenSections before ∧ st.LooksLikeData

/-- Some statement that counts is the signature of exchange files. -/
def HasSignature (text : List Char) : Prop := ∃ st ∈ fileStatements text, st.IsKeyword "ISO-10303-21"

variable {sts : List Statement} {st : Statement} {p : ReadState}

/-- A heading begins with the letters of the word. -/
lemma DataHeading.beginsData (h : DataHeading st.text) : st.BeginsData := by
  have hbracket : '(' ∈ st.text := by
    generalize st.text = t at h
    cases h with
    | closed hlist =>
      obtain ⟨s, rfl⟩ := hlist.eq_cons
      simp
    | unclosed hlist =>
      obtain ⟨s, rfl⟩ := hlist.eq_cons
      simp
  refine ⟨keyword?_eq_none_of_mem hbracket rfl rfl (by decide), ?_⟩
  generalize st.text = t at h
  cases h with
  | closed hlist hb => exact ⟨_, _, hb, rfl⟩
  | unclosed hlist hb => exact ⟨_, _, hb, rfl⟩

lemma visible_data : Visible "DATA".toList := ⟨'D', ['A', 'T', 'A'], rfl, rfl⟩

/-- A bracket follows the word. -/
lemma DataHeading.exists_bracket {t : List Char} (h : DataHeading t) :
    ∃ r, skipBlanks ((skipBlanks t).drop 4) = '(' :: r := by
  have hdrop : ∀ r, ("DATA".toList ++ r).drop 4 = r := fun _ => rfl
  cases h with
  | closed hlist hb hb₁ =>
    obtain ⟨s, rfl⟩ := hlist.eq_cons
    rw [visible_data.skipBlanks_blanks hb, hdrop, List.cons_append, skipBlanks_blanks_cons hb₁ rfl]
    exact ⟨_, rfl⟩
  | unclosed hlist hb hb₁ =>
    obtain ⟨s, rfl⟩ := hlist.eq_cons
    rw [visible_data.skipBlanks_blanks hb, hdrop, List.cons_append, skipBlanks_blanks_cons hb₁ rfl]
    exact ⟨_, rfl⟩

/-- A statement is taken for the heading of a data section if it begins with these letters. -/
lemma opensParameterisedData_iff :
    opensParameterisedData st = true ↔ ∃ b r, Blanks b ∧ st.text = b ++ ("DATA".toList ++ r) := by
  rw [opensParameterisedData, List.isPrefixOf_iff_prefix]
  constructor
  · rintro ⟨r, hr⟩
    obtain ⟨b, hb, htext⟩ := exists_blanks st.text
    exact ⟨b, r, hb, by rw [hr, ← htext]⟩
  · rintro ⟨b, r, hb, htext⟩
    rw [htext, visible_data.skipBlanks_blanks hb]
    exact List.prefix_append _ _

/-! ## What one statement does -/

/-- In the header a statement is a record or a problem. -/
lemma headerAct_cases (st : Statement) :
    (∃ record, headerAct st = .headerRecord record) ∨ ∃ q, headerAct st = .problem q := by
  rw [headerAct]
  split
  · exact .inl ⟨_, rfl⟩
  · exact .inr ⟨_, rfl⟩

/-- In the data section a statement is an entity or a problem. -/
lemma dataAct_cases (st : Statement) :
    (∃ raw, dataAct st = .entity raw) ∨ ∃ q, dataAct st = .problem q := by
  rw [dataAct]
  split
  · split
    · exact .inl ⟨_, rfl⟩
    · exact .inr ⟨_, rfl⟩
  · exact .inr ⟨_, rfl⟩

/-- A data section is opened by the keyword, or by the first letters outside of all sections. -/
lemma act_eq_openData_iff {here : Option Section} :
    st.act here = .openData ↔ st.IsKeyword "DATA" ∨ here = none ∧ st.BeginsData := by
  rw [Statement.act.eq_def]
  cases hword : st.keyword? with
  | some w =>
    simp only [isKeyword_iff_of_keyword? hword, Statement.BeginsData, hword, reduceCtorEq, false_and, and_false,
      or_false, keywordAct, statementProblem]
    split_ifs <;> simp_all
  | none =>
    simp only [not_isKeyword_of_none hword, Statement.BeginsData, hword, true_and, false_or,
      ← opensParameterisedData_iff]
    rcases here with _ | _ | _
    · simp [statementProblem]
    · obtain ⟨record, h⟩ | ⟨q, h⟩ := headerAct_cases st <;> simp [h]
    · obtain ⟨raw, h⟩ | ⟨q, h⟩ := dataAct_cases st <;> simp [h]

/-- Only the keyword is the signature. -/
lemma act_eq_signature_iff {here : Option Section} :
    st.act here = .signature ↔ st.IsKeyword "ISO-10303-21" := by
  rw [Statement.act.eq_def]
  cases hword : st.keyword? with
  | some w =>
    simp only [isKeyword_iff_of_keyword? hword, keywordAct, statementProblem]
    split_ifs <;> simp_all
  | none =>
    simp only [not_isKeyword_of_none hword, iff_false]
    rcases here with _ | _ | _
    · simp only [statementProblem]
      split <;> simp
    · obtain ⟨record, h⟩ | ⟨q, h⟩ := headerAct_cases st <;> simp [h]
    · obtain ⟨raw, h⟩ | ⟨q, h⟩ := dataAct_cases st <;> simp [h]

/-- A data section has been seen once it has been opened. -/
lemma hasData_apply_iff (act : Act) : (p.apply act).hasData = true ↔ p.hasData = true ∨ act = .openData := by
  cases act with
  | entity raw =>
    rw [ReadState.apply]
    split <;> simp
  | openData => simp [ReadState.apply]
  | signature | openHeader | closeSection | headerRecord | problem => simp [ReadState.apply]

/-- A signature has been seen once it was there. -/
lemma signed_apply_iff (act : Act) : (p.apply act).signed = true ↔ p.signed = true ∨ act = .signature := by
  cases act with
  | entity raw =>
    rw [ReadState.apply]
    split <;> simp
  | signature => simp [ReadState.apply]
  | openData | openHeader | closeSection | headerRecord | problem => simp [ReadState.apply]

/-! ## What all statements do -/

/-- At first no section is open. -/
lemma betweenSections_nil : BetweenSections [] := by
  intro earlier st later h
  simp at h

/-- Of the keywords, two open a section. -/
lemma opensSection_iff_of_keyword? {w : List Char} (hw : st.keyword? = some w) :
    st.OpensSection ↔ String.ofList w = "HEADER" ∨ String.ofList w = "DATA" := by
  have hheading : ¬ DataHeading st.text := fun h => by cases h.beginsData.1.symm.trans hw
  rw [Statement.OpensSection, isKeyword_iff_of_keyword? hw, isKeyword_iff_of_keyword? hw]
  simp only [hheading, or_false]

/-- Other statements open a section if they are the heading of one. -/
lemma opensSection_iff_of_none (hnone : st.keyword? = none) : st.OpensSection ↔ DataHeading st.text := by
  simp only [Statement.OpensSection, not_isKeyword_of_none hnone, false_or]

/-- The keyword that closes a section opens none. -/
lemma not_opensSection_of_isKeyword (hclose : st.IsKeyword "ENDSEC") : ¬ st.OpensSection := by
  rw [opensSection_iff_of_keyword? (keyword?_eq_some_iff.mpr hclose), String.ofList_toList]
  decide

/-- A closing statement closes all sections; any other leaves them closed unless it opens one. -/
lemma betweenSections_snoc_iff :
    BetweenSections (sts ++ [st]) ↔ st.IsKeyword "ENDSEC" ∨ BetweenSections sts ∧ ¬ st.OpensSection := by
  constructor
  · intro h
    by_cases hclose : st.IsKeyword "ENDSEC"
    · exact .inl hclose
    · refine .inr ⟨?_, ?_⟩
      · rintro earlier opened later rfl hopens
        obtain ⟨close, hmem, hend⟩ := h earlier opened (later ++ [st]) (by simp) hopens
        rcases List.mem_append.mp hmem with hmem | hmem
        · exact ⟨close, hmem, hend⟩
        · rw [List.mem_singleton.mp hmem] at hend
          exact absurd hend hclose
      · intro hopens
        obtain ⟨close, hmem, -⟩ := h sts st [] rfl hopens
        cases hmem
  · -- the opening statement is `st` itself, or one of those before it
    rintro h earlier opened later hsplit hopens
    rcases List.eq_nil_or_concat later with rfl | ⟨later, last, rfl⟩
    · obtain ⟨-, hst⟩ := List.append_inj' hsplit rfl
      cases hst
      rcases h with hclose | ⟨-, hnot⟩
      · exact absurd hopens (not_opensSection_of_isKeyword hclose)
      · exact absurd hopens hnot
    · rw [List.concat_eq_append, ← List.cons_append, ← List.append_assoc] at hsplit
      obtain ⟨rfl, hst⟩ := List.append_inj' hsplit rfl
      cases hst
      rw [List.concat_eq_append]
      rcases h with hclose | ⟨hbetween, -⟩
      · exact ⟨_, List.mem_append_right _ List.mem_cons_self, hclose⟩
      · obtain ⟨close, hmem, hend⟩ := hbetween earlier opened later rfl hopens
        exact ⟨close, List.mem_append_left _ hmem, hend⟩

/-- Some statement opens a data section, by a keyword or by its first letters. -/
def OpensData (sts : List Statement) : Prop :=
  ∃ before st after, sts = before ++ st :: after ∧
    (st.IsKeyword "DATA" ∨ BetweenSections before ∧ st.BeginsData)

/-- As long as no data section has been opened, only a header can be open. -/
structure NoDataYet (sts : List Statement) (p : ReadState) : Prop where
  here_ne_data : p.here ≠ some .data
  here_eq_none_iff : p.here = none ↔ BetweenSections sts

/-- A statement that opens no data section leaves it so. -/
lemma NoDataYet.step (hp : NoDataYet sts p) (hact : st.act p.here ≠ .openData) :
    NoDataYet (sts ++ [st]) (p.step st) := by
  rw [ne_eq, act_eq_openData_iff, not_or, not_and] at hact
  obtain ⟨hdata, hbegins⟩ := hact
  -- which section is open after the statement depends on its keyword alone, `DATA` being ruled out
  have hhere := here_step p st
  rw [sectionAfter] at hhere
  cases hword : st.keyword? with
  | some w =>
    rw [isKeyword_iff_of_keyword? hword] at hdata
    have hbetween : BetweenSections (sts ++ [st]) ↔
        String.ofList w = "ENDSEC" ∨ BetweenSections sts ∧ String.ofList w ≠ "HEADER" := by
      rw [betweenSections_snoc_iff, isKeyword_iff_of_keyword? hword, opensSection_iff_of_keyword? hword]
      simp only [hdata, or_false, ne_eq]
    simp only [hword, if_neg hdata] at hhere
    by_cases hheader : String.ofList w = "HEADER"
    · rw [if_pos hheader] at hhere
      exact ⟨by simp [hhere], by simp [hhere, hbetween, hheader]⟩
    · rw [if_neg hheader] at hhere
      by_cases hclose : String.ofList w = "ENDSEC"
      · rw [if_pos hclose] at hhere
        exact ⟨by simp [hhere], by simp [hhere, hbetween, hclose]⟩
      · rw [if_neg hclose] at hhere
        exact ⟨by rw [hhere]; exact hp.1, by simp [hhere, hbetween, hclose, hheader, hp.2]⟩
  | none =>
    have hstays : (p.step st).here = p.here := by
      simp only [hword] at hhere
      rw [hhere, if_neg]
      rintro ⟨hnone, hopens⟩
      exact hbegins hnone ⟨hword, opensParameterisedData_iff.mp hopens⟩
    refine ⟨by rw [hstays]; exact hp.1, ?_⟩
    rw [hstays, betweenSections_snoc_iff, opensSection_iff_of_none hword, hp.2]
    simp only [not_isKeyword_of_none hword, false_or, iff_self_and]
    exact fun hbetween hheading => hbegins (hp.2.mpr hbetween) hheading.beginsData

/-- One more statement may open a data section, by the keyword or by its first letters. -/
lemma opensData_snoc_iff :
    OpensData (sts ++ [st]) ↔ OpensData sts ∨ st.IsKeyword "DATA" ∨ BetweenSections sts ∧ st.BeginsData :=
  exists_split_snoc_iff

/-- Reading has met a data section exactly if a statement opened one. -/
lemma hasData_foldl_iff (limit : Nat) (sts : List Statement) :
    let p := sts.foldl ReadState.step { log := .empty limit }
    (p.hasData = true ↔ OpensData sts) ∧ (p.hasData = false → NoDataYet sts p) := by
  induction sts using List.reverseRecOn with
  | nil => exact ⟨by simp [OpensData], fun _ => ⟨by simp, by simp [betweenSections_nil]⟩⟩
  | append_singleton sts st ih =>
    obtain ⟨hdata, hnone⟩ := ih
    simp only [List.foldl_append, List.foldl_cons, List.foldl_nil]
    generalize sts.foldl ReadState.step { log := .empty limit } = p at hdata hnone ⊢
    have hstep : (p.step st).hasData = true ↔ p.hasData = true ∨ st.act p.here = .openData := hasData_apply_iff _
    rw [hstep, opensData_snoc_iff, ← hdata]
    -- once there is a data section, it no longer matters which section is open
    cases hp : p.hasData with
    | true => exact ⟨by simp, fun h => by simp [hstep.mpr (.inl hp)] at h⟩
    | false =>
      have hyet := hnone hp
      refine ⟨by rw [act_eq_openData_iff, hyet.here_eq_none_iff], fun h => hyet.step fun hact => ?_⟩
      rw [hstep.mpr (.inr hact)] at h
      cases h

/-- A file is signed if one of its statements is the signature. -/
lemma signed_foldl_iff (sts : List Statement) (p : ReadState) :
    (sts.foldl ReadState.step p).signed = true ↔ p.signed = true ∨ ∃ st ∈ sts, st.IsKeyword "ISO-10303-21" := by
  induction sts generalizing p with
  | nil => simp
  | cons st sts ih =>
    have hstep : (p.step st).signed = true ↔ p.signed = true ∨ st.IsKeyword "ISO-10303-21" := by
      rw [ReadState.step, signed_apply_iff, act_eq_signature_iff]
    rw [List.foldl_cons, ih, hstep, or_assoc]
    simp only [List.mem_cons, exists_eq_or_imp]

/-- A statement that begins with the letters is a heading or looks like one. -/
lemma Statement.beginsData_iff : st.BeginsData ↔ DataHeading st.text ∨ st.LooksLikeData := by
  constructor
  · intro h
    by_cases hheading : DataHeading st.text
    · exact .inl hheading
    · exact .inr ⟨h, hheading⟩
  · rintro (h | h)
    · exact h.beginsData
    · exact h.1

/-- A data section is opened by what is one, or by what only looks like one. -/
lemma opensData_fileStatements_iff {text : List Char} :
    OpensData (fileStatements text) ↔ HasDataSection text ∨ HasLookAlike text := by
  simp only [OpensData, HasDataSection, HasLookAlike, Statement.beginsData_iff, and_or_left, ← or_assoc, exists_or]

end BuildingModel.Exchange

namespace BuildingModel

open Exchange

/-- A text is read as a file exactly if it has a data section or a statement that is taken for its heading. Otherwise
it lacks a data section if it has the signature, and is no exchange file if it has none. -/
theorem ExchangeFile.parse_decided (text : List Char) (limit : Nat) :
    ((∃ file, ExchangeFile.parse text limit = .ok file) ↔ HasDataSection text ∨ HasLookAlike text) ∧
      (ExchangeFile.parse text limit = .error .noDataSection ↔
        ¬ HasDataSection text ∧ ¬ HasLookAlike text ∧ HasSignature text) ∧
      (ExchangeFile.parse text limit = .error .notExchangeFile ↔
        ¬ HasDataSection text ∧ ¬ HasLookAlike text ∧ ¬ HasSignature text) := by
  have hdata : (readStatements text limit).hasData = true ↔ HasDataSection text ∨ HasLookAlike text := by
    rw [← opensData_fileStatements_iff]
    exact (hasData_foldl_iff limit (fileStatements text)).1
  have hsigned : (readStatements text limit).signed = true ↔ HasSignature text := by
    rw [readStatements, signed_foldl_iff]
    simp [HasSignature]
  have hneither : ∀ other : Prop, ¬ HasDataSection text ∧ ¬ HasLookAlike text ∧ other ↔
      (readStatements text limit).hasData = false ∧ other := by
    intro other
    rw [← and_assoc, ← not_or, ← hdata, Bool.not_eq_true]
  rw [hneither, hneither, ← hdata, ← hsigned]
  simp only [parse]
  cases (readStatements text limit).hasData with
  | true => simp
  | false =>
    cases (readStatements text limit).signed with
    | true => simp
    | false => simp

/-- A text about a database, which is no exchange file. -/
def databaseText : List Char := "DATABASE export 7".toList

lemma databaseText_eq :
    databaseText = ['D', 'A', 'T', 'A', 'B', 'A', 'S', 'E', ' ', 'e', 'x', 'p', 'o', 'r', 't', ' ', '7'] := by
  cbv

/-- The text is one statement. -/
lemma fileStatements_databaseText : fileStatements databaseText = [⟨0, databaseText, false⟩] := by
  have hnext : Cursor.next? ⟨0, databaseText⟩ = some (⟨0, databaseText, false⟩, ⟨17, []⟩) := by
    rw [databaseText_eq]
    rfl
  rw [fileStatements, statements, Cursor.start, statements_of_next? hnext, statements_of_next?_none rfl]
  cbv

/-- It has neither a data section nor the signature, but it is read as a file without entities. -/
theorem ExchangeFile.parse_databaseText :
    ¬ HasDataSection databaseText ∧ ¬ HasSignature databaseText ∧
      ∀ limit, ExchangeFile.parse databaseText limit = .ok ⟨{}, {}, .empty limit⟩ := by
  have hword : Statement.keyword? ⟨0, databaseText, false⟩ = none := by
    rw [databaseText_eq]
    rfl
  have hheading : ¬ DataHeading databaseText := by
    intro h
    obtain ⟨r, hr⟩ := h.exists_bracket
    rw [databaseText_eq] at hr
    cases hr
  refine ⟨?_, ?_, ?_⟩
  · rintro ⟨before, st, after, hsplit, hopens⟩
    have hst : st = ⟨0, databaseText, false⟩ := by
      rw [← List.mem_singleton, ← fileStatements_databaseText, hsplit]
      simp
    subst hst
    rcases hopens with hdata | ⟨-, hdata⟩
    · exact not_isKeyword_of_none hword hdata
    · exact hheading hdata
  · rintro ⟨st, hst, hsignature⟩
    rw [fileStatements_databaseText, List.mem_singleton] at hst
    subst hst
    exact not_isKeyword_of_none hword hsignature
  · intro limit
    have hact : Statement.act ⟨0, databaseText, false⟩ none = .openData := by
      refine act_eq_openData_iff.mpr (.inr ⟨rfl, hword, [], "BASE export 7".toList, by simp [Blanks], ?_⟩)
      cbv
    rw [parse, readStatements, fileStatements_databaseText, List.foldl_cons, List.foldl_nil, ReadState.step, hact]
    rfl

end BuildingModel
