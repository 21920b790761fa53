import BuildingModel.Exchange.File
import BuildingModel.Proofs.Exchange.ValueText

/-!
# Statements cut whole

`Passes t` says that cutting never stops inside `t` and is in no literal or comment after it. Pieces that
pass can be put together, and a text that passes is cut off as one statement at the semicolon after it.
`ReadState.run` follows the reading of a file from a place on; `ReadState.run_statement` is its step.
-/

namespace BuildingModel.Exchange

open Text

/-- Cutting goes through the text and is at its end where it was before. -/
def Passes (t : List Char) : Prop :=
  ∀ taken r, cut .plain taken (t ++ r) = cut .plain (t.reverse ++ taken) r

lemma passes_nil : Passes [] := fun _ _ => rfl

/-- Texts that cutting goes through follow each other. -/
lemma Passes.append {s t : List Char} (hs : Passes s) (ht : Passes t) : Passes (s ++ t) := by
  intro taken r
  rw [List.append_assoc, hs, ht, List.reverse_append, List.append_assoc]

/-- The characters that mean nothing for cutting. -/
def isPlain (c : Char) : Bool := c != ';' && c != '\n' && c != '\'' && c != '/'

/-- A character that opens nothing leaves the mode. -/
lemma step_plain_of_ne {c : Char} (hquote : c ≠ '\'') (hslash : c ≠ '/') (r : List Char) :
    Mode.step .plain c r = .plain := by
  simp [Mode.step, opensComment, hquote, hslash]

/-- A plain character is gone through. -/
lemma passes_singleton {c : Char} (hc : isPlain c = true) : Passes [c] := by
  intro taken r
  simp only [isPlain, Bool.and_eq_true, bne_iff_ne] at hc
  obtain ⟨⟨⟨hsemi, hline⟩, hquote⟩, hslash⟩ := hc
  rw [List.singleton_append, cut, if_neg (by simp [hsemi]), if_neg (by simp [hline]),
    step_plain_of_ne hquote hslash]
  rfl

/-- A text of plain characters is gone through. -/
lemma passes_of_isPlain {t : List Char} (ht : ∀ c ∈ t, isPlain c = true) : Passes t := by
  induction t with
  | nil => exact passes_nil
  | cons c t ih =>
    have hc := passes_singleton (ht c List.mem_cons_self)
    exact hc.append (ih fun d hd => ht d (List.mem_cons_of_mem _ hd))

/-- A plain character may stand before any text that is gone through. -/
lemma Passes.cons {c : Char} {t : List Char} (ht : Passes t) (hc : isPlain c = true) : Passes (c :: t) :=
  (passes_singleton hc).append ht

/-- The characters of keywords are plain. -/
lemma isPlain_of_isKeywordChar {c : Char} (hc : isKeywordChar c = true) : isPlain c = true := by
  rw [isKeywordChar_iff] at hc
  simp only [isPlain, Bool.and_eq_true, bne_iff_ne, ne_eq, ← Char.toNat_inj, Char.reduceToNat]
  omega

/-- Words are gone through. -/
lemma passes_of_isKeywordChar {t : List Char} (ht : ∀ c ∈ t, isKeywordChar c = true) : Passes t :=
  passes_of_isPlain fun c hc => isPlain_of_isKeywordChar (ht c hc)

/-- At an apostrophe a literal begins. -/
lemma cut_plain_apostrophe (taken s : List Char) :
    cut .plain taken ('\'' :: s) = cut .literal ('\'' :: taken) s := by
  rw [cut, if_neg (by simp), if_neg (by simp)]
  rfl

/-- In a literal only an apostrophe counts. -/
lemma cut_literal_cons (taken : List Char) (c : Char) (s : List Char) :
    cut .literal taken (c :: s) = cut (if c = '\'' then .plain else .literal) (c :: taken) s := by
  rw [cut, if_neg (by simp), if_neg (by simp)]
  rfl

/-- A doubled apostrophe ends a literal and opens the next at once, so that cutting never looks at what
stands inside. -/
lemma passes_literal (s : List Char) : Passes ('\'' :: (doubled '\'' s ++ ['\''])) := by
  have hinside : ∀ taken r, cut .literal taken (doubled '\'' s ++ '\'' :: r) =
      cut .plain ('\'' :: ((doubled '\'' s).reverse ++ taken)) r := by
    induction s with
    | nil =>
      intro taken r
      exact cut_literal_cons taken '\'' r
    | cons c s ih =>
      intro taken r
      by_cases hc : c = '\''
      · subst hc
        rw [doubled_cons_self, List.cons_append, cut_literal_cons, if_pos rfl, List.cons_append,
          cut_plain_apostrophe, ih]
        simp
      · rw [doubled_cons_of_ne hc, List.cons_append, cut_literal_cons, if_neg hc, ih]
        simp
  intro taken r
  rw [List.cons_append, List.append_assoc, cut_plain_apostrophe, List.singleton_append, hinside]
  simp

lemma Digits.passes (ds : Digits) : Passes ds.chars := by
  apply passes_of_isKeywordChar
  intro c hc
  have hdigit := isDigit_iff.mp (ds.isDigit c hc)
  exact isKeywordChar_iff.mpr (by omega)

lemma Sign.passes (sign : Sign) : Passes sign.chars := by
  cases sign with
  | none => exact passes_nil
  | plus => exact passes_singleton rfl
  | minus => exact passes_singleton rfl

/-- Cutting goes through real numbers. -/
lemma RealText.passes (t : RealText) : Passes t.chars := by
  have hplaces : Passes t.places := by
    apply passes_of_isKeywordChar
    intro c hc
    have hdigit := isDigit_iff.mp (t.isDigit_places c hc)
    exact isKeywordChar_iff.mpr (by omega)
  have hpower : Passes t.powerChars := by
    unfold powerChars
    cases t.power with
    | none => exact passes_nil
    | some p =>
      refine Passes.cons (p.sign.passes.append p.digits.passes) ?_
      rcases p.mark_eq with h | h
      · rw [h]; rfl
      · rw [h]; rfl
  exact t.sign.passes.append (t.whole.passes.append ((hplaces.append hpower).cons rfl))

/-! ## Statements -/

/-- A statement begins with neither white space nor a comment. -/
structure Begins (t : List Char) : Prop where
  ne_nil : t ≠ []
  not_blank : Stops isAsciiBlank t
  not_slash : Stops (· == '/') t

/-- Nothing is skipped where a statement begins. -/
lemma skipTrivia_of_begins {t : List Char} (ht : Begins t) (position : Nat) (r : List Char) :
    Cursor.skipTrivia .plain position (t ++ r) = ⟨position, t ++ r⟩ := by
  obtain ⟨hne, hblank, hslash⟩ := ht
  obtain ⟨c, t, rfl⟩ := List.exists_cons_of_ne_nil hne
  rw [stops_cons] at hblank
  rw [stops_cons, beq_eq_false_iff_ne] at hslash
  rw [List.cons_append, Cursor.skipTrivia, if_pos]
  simp [hblank, opensComment, hslash]

/-- A new line before a statement is passed over. -/
lemma skipTrivia_newline (position : Nat) (s : List Char) :
    Cursor.skipTrivia .plain position ('\n' :: s) = Cursor.skipTrivia .plain (position + 1) s := by
  rw [Cursor.skipTrivia, if_neg (by simp [isAsciiBlank])]
  rfl

/-- The statements from a place on are the next one and those after it. -/
lemma statements_of_next? {here there : Cursor} {st : Statement} (h : here.next? = some (st, there)) :
    here.statements = (st, there.position) :: there.statements := by
  rw [Cursor.statements.eq_def]
  split
  · rename_i h'
    cases h.symm.trans h'
    rfl
  · rename_i h'
    cases h.symm.trans h'

/-- There are none if there is no next one. -/
lemma statements_of_next?_none {here : Cursor} (h : here.next? = none) : here.statements = [] := by
  rw [Cursor.statements.eq_def]
  split
  · rename_i h'
    cases h.symm.trans h'
  · rfl

/-- Places with the same next statement have the same statements. -/
lemma statements_congr {here there : Cursor} (h : here.next? = there.next?) :
    here.statements = there.statements := by
  cases hthere : there.next? with
  | none => rw [statements_of_next?_none hthere, statements_of_next?_none (h.trans hthere)]
  | some found => rw [statements_of_next? hthere, statements_of_next? (h.trans hthere)]

/-- The next statement is what is cut up to its semicolon. -/
lemma next?_of_cut {t r : List Char} (hbegins : Begins t)
    (hcut : cut .plain [] (t ++ ';' :: r) = ⟨';' :: t.reverse, .semicolon, r⟩) (position : Nat) :
    Cursor.next? ⟨position, t ++ ';' :: r⟩ =
      some (⟨position, t ++ [';'], true⟩, ⟨position + byteLength (';' :: t.reverse), r⟩) := by
  simp only [Cursor.next?, skipTrivia_of_begins hbegins]
  rw [if_neg (by simp)]
  simp only [Cursor.statementHere, hcut, List.reverse_cons, List.reverse_reverse]

/-- A text that passes is cut off as one statement. -/
lemma next?_of_passes {t : List Char} (hbegins : Begins t) (hpasses : Passes t) (position : Nat)
    (r : List Char) :
    Cursor.next? ⟨position, t ++ ';' :: r⟩ =
      some (⟨position, t ++ [';'], true⟩, ⟨position + byteLength (';' :: t.reverse), r⟩) := by
  apply next?_of_cut hbegins
  rw [hpasses, List.append_nil, cut, if_pos ⟨rfl, rfl⟩]

/-! ## Keywords -/

/-- A visible character at the end stops the trimming. -/
lemma trimEnd_append_singleton (s : List Char) {c : Char} (hc : isBlank c = false) :
    trimEnd (s ++ [c]) = s ++ [c] := by
  rw [trimEnd, List.reverse_append, List.reverse_singleton, List.singleton_append,
    List.dropWhile_cons_of_neg (by rw [hc]; decide), List.reverse_cons, List.reverse_reverse]

/-- Skipping white space loses no visible character. -/
lemma mem_skipBlanks {c : Char} {t : List Char} (hc : c ∈ t) (hblank : isBlank c = false) :
    c ∈ skipBlanks t := by
  rw [← List.takeWhile_append_dropWhile (p := isBlank) (l := t), List.mem_append] at hc
  rcases hc with htake | hdrop
  · rw [List.mem_takeWhile_imp htake] at hblank
    cases hblank
  · exact hdrop

/-- Trimming keeps what can be seen. -/
lemma mem_trimEnd {c : Char} {t : List Char} (hc : c ∈ t) (hblank : isBlank c = false) : c ∈ trimEnd t := by
  rw [trimEnd, List.mem_reverse]
  exact mem_skipBlanks (List.mem_reverse.mpr hc) hblank

/-- The keyword of a statement that begins with no white space. -/
lemma keyword?_eq {t : List Char} (ht : Stops isBlank (t ++ [';'])) (offset : Nat) :
    Statement.keyword? ⟨offset, t ++ [';'], true⟩ =
      if trimEnd t ≠ [] ∧ (trimEnd t).all isKeywordChar then some (trimEnd t) else none := by
  have hskip : skipBlanks (t ++ [';']) = t ++ [';'] := by
    cases t with
    | nil => rfl
    | cons c t =>
      rw [List.cons_append, stops_cons] at ht
      exact List.dropWhile_cons_of_neg (by rw [ht]; decide)
  rw [Statement.keyword?]
  simp only [trim, hskip, trimEnd_append_singleton t (rfl : isBlank ';' = false), List.reverse_append,
    List.reverse_singleton, List.singleton_append, List.reverse_reverse]

/-- A word and a semicolon are a keyword. -/
lemma keyword?_word {w : List Char} (hne : w ≠ []) (hw : ∀ c ∈ w, isKeywordChar c = true)
    (offset : Nat) : Statement.keyword? ⟨offset, w ++ [';'], true⟩ = some w := by
  have hblank : ∀ c ∈ w, isBlank c = false := fun c hc => isBlank_of_isKeywordChar (hw c hc)
  have htrim : trimEnd w = w := by
    rw [← List.dropLast_append_getLast hne]
    exact trimEnd_append_singleton _ (hblank _ (List.getLast_mem hne))
  have hstops : Stops isBlank (w ++ [';']) := by
    obtain ⟨c, cs, rfl⟩ := List.exists_cons_of_ne_nil hne
    exact stops_cons.mpr (hblank c List.mem_cons_self)
  rw [keyword?_eq hstops, htrim, if_pos ⟨hne, List.all_eq_true.mpr hw⟩]

/-- A visible character that belongs to no word stays when white space is trimmed, so that the statement
is no keyword. -/
lemma keyword?_eq_none {c : Char} {t : List Char} (hblank : isBlank c = false)
    (hc : isKeywordChar c = false) (offset : Nat) :
    Statement.keyword? ⟨offset, (c :: t) ++ [';'], true⟩ = none := by
  have hmem : c ∈ trimEnd (c :: t) := mem_trimEnd List.mem_cons_self hblank
  rw [keyword?_eq (stops_cons.mpr hblank), if_neg]
  rintro ⟨-, hall⟩
  rw [List.all_eq_true.mp hall c hmem] at hc
  cases hc

/-! ## Reading on -/

/-- Read all statements from a place on, up to the one that ends the file. -/
def ReadState.run (p : ReadState) (here : Cursor) : ReadState :=
  ((here.statements.map (·.1)).takeWhile (!·.endsFile)).foldl ReadState.step p

/-- Reading the statements of a text runs from its start. -/
lemma readStatements_eq (text : List Char) (limit : Nat) :
    readStatements text limit = ReadState.run { log := .empty limit } (Cursor.start text) :=
  rfl

/-- A line end between statements is skipped. -/
lemma ReadState.run_newline (p : ReadState) (position : Nat) (s : List Char) :
    p.run ⟨position, '\n' :: s⟩ = p.run ⟨position + 1, s⟩ := by
  have hnext : Cursor.next? ⟨position, '\n' :: s⟩ = Cursor.next? ⟨position + 1, s⟩ := by
    simp only [Cursor.next?, skipTrivia_newline]
  rw [run, run, statements_congr hnext]

/-- One statement is read, and reading goes on where it has been cut off. -/
lemma ReadState.run_next (p : ReadState) {here there : Cursor} {st : Statement}
    (hnext : here.next? = some (st, there)) (hends : st.endsFile = false) :
    p.run here = (p.step st).run there := by
  rw [run, statements_of_next? hnext, List.map_cons, List.takeWhile_cons_of_pos (by rw [hends]; rfl),
    List.foldl_cons]
  rfl

/-- One statement is read, and reading goes on after its semicolon. -/
lemma ReadState.run_statement (p : ReadState) {t : List Char} (hbegins : Begins t) (hpasses : Passes t)
    (position : Nat) (r : List Char)
    (hends : Statement.endsFile ⟨position, t ++ [';'], true⟩ = false) :
    ∃ finish, p.run ⟨position, t ++ ';' :: r⟩ =
      (p.step ⟨position, t ++ [';'], true⟩).run ⟨finish, r⟩ := by
  refine ⟨position + byteLength (';' :: t.reverse), ?_⟩
  exact p.run_next (next?_of_passes hbegins hpasses position r) hends

/-- What follows the last statement is not read. -/
lemma ReadState.run_end (p : ReadState) {t : List Char} (hbegins : Begins t) (hpasses : Passes t)
    (position : Nat) (r : List Char)
    (hends : Statement.endsFile ⟨position, t ++ [';'], true⟩ = true) :
    p.run ⟨position, t ++ ';' :: r⟩ = p := by
  rw [run, statements_of_next? (next?_of_passes hbegins hpasses position r), List.map_cons,
    List.takeWhile_cons_of_neg (by rw [hends]; decide), List.foldl_nil]

end BuildingModel.Exchange
