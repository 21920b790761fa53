import BuildingModel.Proofs.Exchange.Grammar
import BuildingModel.Proofs.Exchange.Passage

/-!
# Where statements end

Cutting a file into statements and reading a statement look at quotes in different ways: reading knows
literals between apostrophes and between double quotes, cutting only the first kind. `binaries` are the
literals of the second kind. A text that is read as an instance is cut off whole if cutting finds nothing in
them (`Quiet`), and it is cut in two at the first of them in which it finds the end of a statement
(`Splits`): `statements_of_parse`.

A piece of a statement is followed together with what comes after it, since a line end counts for cutting
only if the next line opens an instance, and a quote ends a literal only if it is not doubled.
-/

namespace BuildingModel.Exchange

open Text

/-! ## Binaries -/

/-- What stands between double quotes, outside of strings. -/
def binaries : List Char → List (List Char)
  | [] => []
  | c :: s =>
    if c = '"' then
      match _h : quoted? '"' s with
      | some (b, r) => b :: binaries r
      | none => []
    else if c = '\'' then
      match _h : quoted? '\'' s with
      | some (_, r) => binaries r
      | none => []
    else binaries s
termination_by s => s.length
decreasing_by
  all_goals simp only [List.length_cons]
  · exact Nat.lt_succ_of_lt (length_of_quoted? _h)
  · exact Nat.lt_succ_of_lt (length_of_quoted? _h)
  · exact Nat.lt_succ_self _

/-- The mode after a text that is cut before a double quote, if no statement ends inside. -/
def modeAfter (mode : Mode) : List Char → Option Mode
  | [] => some mode
  | c :: s =>
    if mode = .plain ∧ c = ';' then none
    else if mode = .plain ∧ c = '\n' ∧ opensInstance s then none
    else modeAfter (mode.step c s) s

/-- Cutting finds nothing in a binary. -/
def Quiet (b : List Char) : Prop := modeAfter .plain b = some .plain

/-- Cutting finds the end of a statement in a binary. -/
def Splits (b : List Char) : Prop := modeAfter .plain b = none

instance (b : List Char) : Decidable (Quiet b) := inferInstanceAs (Decidable (_ = _))

instance (b : List Char) : Decidable (Splits b) := inferInstanceAs (Decidable (_ = _))

/-- Digits are quiet, as is all that has no semicolon, line end, apostrophe or slash. -/
lemma quiet_of_isPlain {b : List Char} (hb : ∀ c ∈ b, isPlain c = true) : Quiet b := by
  induction b with
  | nil => rfl
  | cons c b ih =>
    obtain ⟨hc, hb⟩ := List.forall_mem_cons.mp hb
    simp only [isPlain, Bool.and_eq_true, bne_iff_ne] at hc
    obtain ⟨⟨⟨hsemicolon, hline⟩, hquote⟩, hslash⟩ := hc
    rw [Quiet, modeAfter, if_neg (by simp [hsemicolon]), if_neg (by simp [hline]),
      step_plain_of_ne hquote hslash]
    exact ih hb

/-- A character that is no quote does not matter. -/
lemma binaries_of_ne {c : Char} (hbinary : c ≠ '"') (htext : c ≠ '\'') (s : List Char) :
    binaries (c :: s) = binaries s := by
  rw [binaries, if_neg hbinary, if_neg htext]

/-- Characters that are no quotes do not matter. -/
lemma binaries_append_of_ne {t : List Char} (ht : ∀ c ∈ t, c ≠ '"' ∧ c ≠ '\'') (r : List Char) :
    binaries (t ++ r) = binaries r := by
  induction t with
  | nil => rfl
  | cons c t ih =>
    obtain ⟨⟨hbinary, htext⟩, ht⟩ := List.forall_mem_cons.mp ht
    rw [List.cons_append, binaries_of_ne hbinary htext, ih ht]

/-- A binary is found before the rest. -/
lemma binaries_binary (s : List Char) {r : List Char} (hr : Stops (· == '"') r) :
    binaries ('"' :: (doubled '"' s ++ '"' :: r)) = doubled '"' s :: binaries r := by
  rw [binaries, if_pos rfl]
  split
  · rename_i h
    rw [quoted?_doubled s hr] at h
    cases h
    rfl
  · rename_i h
    rw [quoted?_doubled s hr] at h
    cases h

/-- A string is passed over, with all double quotes in it. -/
lemma binaries_text (s : List Char) {r : List Char} (hr : Stops (· == '\'') r) :
    binaries ('\'' :: (doubled '\'' s ++ '\'' :: r)) = binaries r := by
  rw [binaries, if_neg (by decide), if_pos rfl]
  split
  · rename_i h
    rw [quoted?_doubled s hr] at h
    cases h
    rfl
  · rename_i h
    rw [quoted?_doubled s hr] at h
    cases h

/-! ## Lines that open an instance -/

/-- Blanks that may stand before the number of an instance on its line. -/
def isIndent (c : Char) : Bool := c == ' ' || c == '\t' || c == '\r'

/-- Blanks that may stand after the number. -/
def isGap (c : Char) : Bool := c == ' ' || c == '\t'

/-- Blanks before a number do not matter. -/
lemma opensInstance_indent {c : Char} (hc : isIndent c = true) (s : List Char) :
    opensInstance (c :: s) = opensInstance s := by
  unfold opensInstance
  rw [List.dropWhile_cons_of_pos]
  exact hc

/-- What begins otherwise than with a number opens no instance. -/
lemma opensInstance_of_ne {c : Char} (hindent : isIndent c = false) (hc : c ≠ '#') (s : List Char) :
    opensInstance (c :: s) = false := by
  have hdrop : (c :: s).dropWhile (fun c => c == ' ' || c == '\t' || c == '\r') = c :: s :=
    List.dropWhile_cons_of_neg (Bool.not_eq_true _ ▸ hindent)
  unfold opensInstance
  rw [hdrop]
  split
  · rename_i h
    cases h
    exact absurd rfl hc
  · rfl

/-- After the hash there are digits, and an equals sign after a gap. -/
lemma opensInstance_hash (s : List Char) :
    opensInstance ('#' :: s) =
      (run? Char.isDigit s).any fun found => (found.2.dropWhile isGap).head? == some '=' := by
  have hdrop : ('#' :: s).dropWhile (fun c => c == ' ' || c == '\t' || c == '\r') = '#' :: s := rfl
  unfold opensInstance
  rw [hdrop]
  cases hdigits : s.takeWhile Char.isDigit with
  | nil => simp only [run?, hdigits, Option.any_none]
  | cons d ds =>
    simp only [run?, hdigits, Option.any_some]
    change _ = (((s.dropWhile Char.isDigit).dropWhile fun c => c == ' ' || c == '\t').head? == some '=')
    generalize (s.dropWhile Char.isDigit).dropWhile _ = rest
    cases rest with
    | nil => rfl
    | cons c r =>
      by_cases hc : c = '='
      · subst hc
        rfl
      · split
        · rename_i h
          cases h
          exact absurd rfl hc
        · simp [hc]

/-- A blank is none of the characters that are not blank. -/
lemma ne_of_isBlank {c d : Char} (hc : isBlank c = true) (hd : isBlank d = false) : c ≠ d := by
  rintro rfl
  rw [hc] at hd
  cases hd

/-- What is no blank at all does not indent a line. -/
lemma isIndent_of_visible {c : Char} (hc : isBlank c = false) : isIndent c = false := by
  by_contra hindent
  simp only [Bool.not_eq_false, isIndent, Bool.or_eq_true, beq_iff_eq] at hindent
  rcases hindent with (rfl | rfl) | rfl
  · cases hc
  · cases hc
  · cases hc

/-- White space before something that opens no instance opens none. -/
lemma Blanks.opensInstance_append {b r : List Char} (hb : Blanks b) (hr : opensInstance r = false) :
    opensInstance (b ++ r) = false := by
  induction b with
  | nil => exact hr
  | cons c b ih =>
    rw [List.cons_append]
    by_cases hc : isIndent c = true
    · rw [opensInstance_indent hc]
      exact ih fun d hd => hb d (List.mem_cons_of_mem _ hd)
    · rw [Bool.not_eq_true] at hc
      exact opensInstance_of_ne hc (ne_of_isBlank (hb c List.mem_cons_self) rfl) _

/-- A visible text opens no instance unless it begins with a number. -/
lemma Visible.opensInstance_append {t : List Char} (ht : Visible t) (hhash : Stops (· == '#') t)
    (r : List Char) : opensInstance (t ++ r) = false := by
  obtain ⟨c, t, rfl, hc⟩ := ht
  rw [stops_cons, beq_eq_false_iff_ne] at hhash
  exact opensInstance_of_ne (isIndent_of_visible hc) hhash _

/-- A reference opens no instance unless an equals sign follows. -/
lemma opensInstance_ref (ds : Digits) {r : List Char} (hdigit : Stops Char.isDigit r)
    (hequals : Stops (· == '=') (skipBlanks r)) : opensInstance ('#' :: (ds.chars ++ r)) = false := by
  rw [opensInstance_hash, ds.run? hdigit, Option.any_some]
  by_contra h
  rw [Bool.not_eq_false, beq_iff_eq] at h
  obtain ⟨r', hr'⟩ := List.head?_eq_some_iff.mp h
  have hgap : Blanks (r.takeWhile isGap) := by
    intro c hc
    have hc := List.mem_takeWhile_imp hc
    simp only [isGap, Bool.or_eq_true, beq_iff_eq] at hc
    rcases hc with rfl | rfl
    · rfl
    · rfl
  have hskip : skipBlanks r = '=' :: r' := by
    rw [← List.takeWhile_append_dropWhile (p := isGap) (l := r), hr', skipBlanks_blanks_cons hgap rfl]
  rw [hskip, stops_cons] at hequals
  cases hequals

/-- A double quote ends whatever might have opened an instance. -/
lemma opensInstance_append_quote (s r : List Char) :
    opensInstance (s ++ '"' :: r) = opensInstance s := by
  induction s with
  | nil => exact opensInstance_of_ne rfl (by decide) r
  | cons c s ih =>
    rw [List.cons_append]
    by_cases hindent : isIndent c = true
    · rw [opensInstance_indent hindent, opensInstance_indent hindent, ih]
    · rw [Bool.not_eq_true] at hindent
      by_cases hc : c = '#'
      · subst hc
        rw [opensInstance_hash, opensInstance_hash, run?_append_cons rfl]
        cases run? Char.isDigit s with
        | none => rfl
        | some found =>
          simp only [Option.map_some, Option.any_some, List.dropWhile_append]
          cases found.2.dropWhile isGap with
          | nil => rfl
          | cons d r => rfl
      · rw [opensInstance_of_ne hindent hc, opensInstance_of_ne hindent hc]

/-- What stands behind a double quote does not matter for a step. -/
lemma step_append_quote (mode : Mode) (c : Char) (s r : List Char) :
    mode.step c (s ++ '"' :: r) = mode.step c s := by
  cases s with
  | nil => simp [Mode.step, opensComment]
  | cons d s => rfl

/-- Cutting goes through a quiet text in the mode that it ends in. -/
lemma cut_of_modeAfter {mode mode' : Mode} {b : List Char} (h : modeAfter mode b = some mode')
    (taken r : List Char) :
    cut mode taken (b ++ '"' :: r) = cut mode' (b.reverse ++ taken) ('"' :: r) := by
  induction b generalizing mode taken with
  | nil =>
    cases h
    rfl
  | cons c b ih =>
    rw [modeAfter] at h
    split at h
    · cases h
    · rename_i hsemicolon
      split at h
      · cases h
      · rename_i hline
        rw [List.cons_append, cut, if_neg hsemicolon, opensInstance_append_quote, if_neg hline,
          step_append_quote, ih h, List.reverse_cons, List.append_assoc]
        rfl

/-- If a statement ends inside, cutting stops before the rest. -/
lemma length_rest_cut_of_modeAfter {mode : Mode} {b : List Char} (h : modeAfter mode b = none)
    (taken r : List Char) : r.length < (cut mode taken (b ++ '"' :: r)).rest.length := by
  induction b generalizing mode taken with
  | nil => cases h
  | cons c b ih =>
    have hlength : r.length < (b ++ '"' :: r).length := by
      rw [List.length_append, List.length_cons]
      omega
    rw [modeAfter] at h
    rw [List.cons_append, cut, opensInstance_append_quote]
    split
    · exact hlength
    · rename_i hsemicolon
      rw [if_neg hsemicolon] at h
      split
      · exact hlength
      · rename_i hline
        rw [if_neg hline] at h
        rw [step_append_quote]
        exact ih h _

/-! ## Pieces of a statement -/

/-- Reading finds the binaries `bs` in the text `t` before `r`, and cutting goes through it up to the first
of them that is not quiet. -/
structure Through (t r : List Char) (bs : List (List Char)) : Prop where
  binaries : binaries (t ++ r) = bs ++ binaries r
  passes : (∀ b ∈ bs, Quiet b) → ∀ taken, cut .plain taken (t ++ r) = cut .plain (t.reverse ++ taken) r
  stops : ∀ pre b post, bs = pre ++ b :: post → (∀ b' ∈ pre, Quiet b') → Splits b →
    ∀ taken, r.length < (cut .plain taken (t ++ r)).rest.length

/-- The characters that mean nothing for cutting and do not begin a literal. -/
def isInert (c : Char) : Bool := isPlain c && c != '"'

/-- Inert characters are those that are plain and no double quotes. -/
lemma isInert_iff {c : Char} : isInert c = true ↔ isPlain c = true ∧ c ≠ '"' := by
  rw [isInert, Bool.and_eq_true, bne_iff_ne]

lemma ne_apostrophe_of_isPlain {c : Char} (hc : isPlain c = true) : c ≠ '\'' := by
  rintro rfl
  cases hc

namespace Through

variable {s t r : List Char} {bs bs' : List (List Char)}

/-- Texts that are gone through one after the other are gone through together. -/
lemma append (hs : Through s (t ++ r) bs) (ht : Through t r bs') : Through (s ++ t) r (bs ++ bs') := by
  constructor
  case binaries => rw [List.append_assoc, hs.binaries, ht.binaries, List.append_assoc]
  case passes =>
    intro hquiet taken
    rw [List.append_assoc, hs.passes fun b hb => hquiet b (List.mem_append_left _ hb),
      ht.passes fun b hb => hquiet b (List.mem_append_right _ hb), List.reverse_append, List.append_assoc]
  case stops =>
    intro pre b post hbs hpre hb taken
    -- The binary that splits stands in `t`, after all those of `s`, or in `s` itself.
    have hin_t : ∀ as, pre = bs ++ as → bs' = as ++ b :: post →
        r.length < (cut .plain taken (s ++ (t ++ r))).rest.length := by
      rintro as rfl hbs'
      rw [hs.passes fun b' hb' => hpre b' (List.mem_append_left _ hb')]
      exact ht.stops as b post hbs' (fun b' hb' => hpre b' (List.mem_append_right _ hb')) hb _
    rw [List.append_assoc]
    rcases List.append_eq_append_iff.mp hbs with ⟨as, hpre', hbs'⟩ | ⟨cs, hbs', hpost⟩
    · exact hin_t as hpre' hbs'
    · cases cs with
      | nil =>
        rw [List.append_nil] at hbs'
        exact hin_t [] (by rw [hbs', List.append_nil]) hpost.symm
      | cons c cs =>
        cases hpost
        have hlt := hs.stops pre b cs hbs' hpre hb taken
        rw [List.length_append] at hlt
        omega

/-- A text without binaries. -/
lemma of_passes (hbinaries : Exchange.binaries (t ++ r) = Exchange.binaries r)
    (hpasses : ∀ taken, cut .plain taken (t ++ r) = cut .plain (t.reverse ++ taken) r) :
    Through t r [] where
  binaries := hbinaries
  passes _ := hpasses
  stops pre b post h := by
    have := congrArg List.length h
    simp at this

/-- Cutting goes through a string, which holds no binary. -/
lemma text (u : List Char) (hr : Stops (· == '\'') r) :
    Through ('\'' :: (doubled '\'' u ++ ['\''])) r [] := by
  apply of_passes
  · simp only [List.cons_append, List.append_assoc, List.nil_append]
    exact binaries_text u hr
  · exact fun taken => passes_literal u taken r

/-- A binary is the one that is found in its own text. -/
lemma binary (u : List Char) (hr : Stops (· == '"') r) :
    Through ('"' :: (doubled '"' u ++ ['"'])) r [doubled '"' u] := by
  have hquote : Passes ['"'] := passes_singleton rfl
  have hopen : ∀ taken, cut .plain taken ('"' :: (doubled '"' u ++ ['"']) ++ r) =
      cut .plain ('"' :: taken) (doubled '"' u ++ '"' :: r) := by
    intro taken
    simp only [List.cons_append, List.append_assoc, List.nil_append]
    exact hquote taken _
  constructor
  case binaries =>
    simp only [List.cons_append, List.append_assoc, List.nil_append]
    exact binaries_binary u hr
  case passes =>
    intro hquiet taken
    rw [hopen, cut_of_modeAfter (hquiet _ List.mem_cons_self)]
    have hclose := hquote ((doubled '"' u).reverse ++ '"' :: taken) r
    rw [List.singleton_append] at hclose
    rw [hclose]
    simp
  case stops =>
    intro pre b post h hpre hb taken
    cases pre with
    | nil =>
      cases h
      rw [hopen]
      exact length_rest_cut_of_modeAfter hb _ _
    | cons b' pre =>
      have := congrArg List.length h
      simp at this

/-- A text of characters that mean nothing, neither for cutting nor for reading. -/
lemma of_isInert (ht : ∀ c ∈ t, isInert c = true) : Through t r [] := by
  apply of_passes
  · apply binaries_append_of_ne
    intro c hc
    obtain ⟨hplain, hbinary⟩ := isInert_iff.mp (ht c hc)
    exact ⟨hbinary, ne_apostrophe_of_isPlain hplain⟩
  · intro taken
    exact passes_of_isPlain (fun c hc => (isInert_iff.mp (ht c hc)).1) taken r

/-- White space, before what opens no instance. -/
lemma of_blanks (ht : Blanks t) (hr : opensInstance r = false) : Through t r [] := by
  apply of_passes
  · apply binaries_append_of_ne
    intro c hc
    exact ⟨ne_of_isBlank (ht c hc) rfl, ne_of_isBlank (ht c hc) rfl⟩
  · induction t with
    | nil => exact fun taken => rfl
    | cons c t ih =>
      intro taken
      obtain ⟨hc, ht⟩ := List.forall_mem_cons.mp ht
      rw [List.cons_append, cut, if_neg (by simp [ne_of_isBlank hc (rfl : isBlank ';' = false)]),
        if_neg (by simp [Blanks.opensInstance_append ht hr]),
        step_plain_of_ne (ne_of_isBlank hc rfl) (ne_of_isBlank hc rfl), ih ht, List.reverse_cons,
        List.append_assoc]
      rfl

/-- Cutting goes through an inert character. -/
lemma singleton {c : Char} (hc : isInert c = true) : Through [c] r [] :=
  of_isInert (List.forall_mem_singleton.mpr hc)

/-- An inert character may stand before any text. -/
lemma cons {c : Char} (hc : isInert c = true) (ht : Through t r bs) : Through (c :: t) r bs :=
  (singleton hc).append ht

/-- White space in front of a piece. -/
lemma blanks_append {b : List Char} (hb : Blanks b) (hopens : opensInstance (t ++ r) = false)
    (ht : Through t r bs) : Through (b ++ t) r bs :=
  (of_blanks hb hopens).append ht

end Through

/-! ## Simple values -/

/-- The characters of keywords are inert. -/
lemma isInert_of_isKeywordChar {c : Char} (hc : isKeywordChar c = true) : isInert c = true := by
  refine isInert_iff.mpr ⟨isPlain_of_isKeywordChar hc, ?_⟩
  rintro rfl
  cases hc

lemma isKeywordChar_of_isDigit {c : Char} (hc : c.isDigit = true) : isKeywordChar c = true := by
  have hdigit := isDigit_iff.mp hc
  exact isKeywordChar_iff.mpr (by omega)

lemma Digits.isInert (ds : Digits) : ∀ c ∈ ds.chars, isInert c = true :=
  fun c hc => isInert_of_isKeywordChar (isKeywordChar_of_isDigit (ds.isDigit c hc))

/-- Signs are written with few characters. -/
lemma Sign.chars_cases (sign : Sign) : ∀ c ∈ sign.chars, isKeywordChar c = true ∨ c = '.' ∨ c = '+' := by
  cases sign with
  | none => exact fun c hc => absurd hc List.not_mem_nil
  | plus => exact List.forall_mem_singleton.mpr (.inr (.inr rfl))
  | minus => exact List.forall_mem_singleton.mpr (.inl rfl)

/-- A number has only characters of words, points and signs. -/
lemma RealText.chars_cases (t : RealText) : ∀ c ∈ t.chars, isKeywordChar c = true ∨ c = '.' ∨ c = '+' := by
  have hdigits : ∀ ds : Digits, ∀ c ∈ ds.chars, Text.isKeywordChar c = true ∨ c = '.' ∨ c = '+' :=
    fun ds c hc => .inl (isKeywordChar_of_isDigit (ds.isDigit c hc))
  have hpower : ∀ c ∈ t.powerChars, Text.isKeywordChar c = true ∨ c = '.' ∨ c = '+' := by
    rw [powerChars]
    cases t.power with
    | none => exact fun c hc => absurd hc List.not_mem_nil
    | some p =>
      refine List.forall_mem_cons.mpr ⟨.inl ?_, List.forall_mem_append.mpr ⟨p.sign.chars_cases, hdigits p.digits⟩⟩
      rcases p.mark_eq with h | h
      · rw [h]; rfl
      · rw [h]; rfl
  refine List.forall_mem_append.mpr ⟨t.sign.chars_cases, List.forall_mem_append.mpr ⟨hdigits t.whole, ?_⟩⟩
  refine List.forall_mem_cons.mpr ⟨.inr (.inl rfl), List.forall_mem_append.mpr ⟨?_, hpower⟩⟩
  exact fun c hc => .inl (isKeywordChar_of_isDigit (t.isDigit_places c hc))

/-- All characters of numbers are inert. -/
lemma isInert_of_cases {c : Char} (hc : isKeywordChar c = true ∨ c = '.' ∨ c = '+') : isInert c = true := by
  rcases hc with hc | rfl | rfl
  · exact isInert_of_isKeywordChar hc
  · rfl
  · rfl

/-- Cutting goes through the text of every simple value. -/
lemma SimpleText.through {v : Value} {t r : List Char} (ht : SimpleText v t) (hr : Delimited r) :
    ∃ bs, Through t r bs := by
  cases ht with
  | real t => exact ⟨[], .of_isInert fun c hc => isInert_of_cases (t.chars_cases c hc)⟩
  | integer sign ds value =>
    have hsign : ∀ c ∈ sign.chars, isInert c = true := fun c hc => isInert_of_cases (sign.chars_cases c hc)
    exact ⟨[], .of_isInert (List.forall_mem_append.mpr ⟨hsign, ds.isInert⟩)⟩
  | ref ds value => exact ⟨[], .of_isInert (List.forall_mem_cons.mpr ⟨rfl, ds.isInert⟩)⟩
  | text s => exact ⟨[], .text s (hr.stops_quote rfl)⟩
  | binary s => exact ⟨[doubled '"' s], .binary s (hr.stops_quote rfl)⟩
  | @enum w ne_nil isName =>
    have hw : ∀ c ∈ w, isInert c = true :=
      fun c hc => isInert_of_isKeywordChar (isKeywordChar_of_isNameChar (isName c hc))
    exact ⟨[], .cons rfl (.of_isInert (List.forall_mem_append.mpr ⟨hw, List.forall_mem_singleton.mpr rfl⟩))⟩
  | omitted => exact ⟨[], .singleton rfl⟩
  | derived => exact ⟨[], .singleton rfl⟩

/-- A number does not begin with a hash sign. -/
lemma Sign.stops_hash (sign : Sign) (ds : Digits) (r : List Char) :
    Stops (· == '#') (sign.chars ++ (ds.chars ++ r)) := by
  cases sign with
  | plus => exact stops_cons.mpr rfl
  | minus => exact stops_cons.mpr rfl
  | none =>
    obtain ⟨c, cs, hcs⟩ := List.exists_cons_of_ne_nil ds.ne_nil
    have hc := ds.isDigit c (by rw [hcs]; exact List.mem_cons_self)
    rw [hcs]
    refine stops_cons.mpr (beq_eq_false_iff_ne.mpr ?_)
    rintro rfl
    cases hc

/-- No simple value in a list opens an instance. -/
lemma SimpleText.opensInstance_append {v : Value} {t r : List Char} (ht : SimpleText v t)
    (hdigit : Stops Char.isDigit r) (hequals : Stops (· == '=') (skipBlanks r)) :
    opensInstance (t ++ r) = false := by
  have hvisible := ht.visible
  cases ht with
  | real t => exact hvisible.opensInstance_append (t.sign.stops_hash t.whole _) r
  | integer sign ds value =>
    exact hvisible.opensInstance_append (by simpa using sign.stops_hash ds []) r
  | ref ds value => exact opensInstance_ref ds hdigit hequals
  | text | binary | enum | omitted | derived => exact hvisible.opensInstance_append (stops_cons.mpr rfl) r

/-! ## Values and instances -/

/-- What closes a value opens no instance. -/
lemma Closed.opensInstance_eq_false {r : List Char} (hr : Closed r) : opensInstance r = false := by
  obtain ⟨c, s, rfl, rfl | rfl⟩ := hr
  · exact opensInstance_of_ne rfl (by decide) s
  · exact opensInstance_of_ne rfl (by decide) s

/-- What closes a value does not begin with an equals sign. -/
lemma Closed.stops_equals {r : List Char} (hr : Closed r) : Stops (· == '=') r := by
  obtain ⟨c, s, rfl, rfl | rfl⟩ := hr
  · exact stops_cons.mpr rfl
  · exact stops_cons.mpr rfl

/-- A list opens no instance. -/
lemma ListText.opensInstance_append {vs : List Value} {t : List Char} (ht : ListText vs t)
    (r : List Char) : opensInstance (t ++ r) = false := by
  have hvisible := ht.visible
  obtain ⟨s, rfl⟩ := ht.eq_cons
  exact hvisible.opensInstance_append (stops_cons.mpr rfl) r

/-- A word opens no instance. -/
lemma opensInstance_word {w : List Char} (hne : w ≠ []) (hw : ∀ c ∈ w, isKeywordChar c = true)
    (r : List Char) : opensInstance (w ++ r) = false := by
  obtain ⟨c, cs, rfl⟩ := List.exists_cons_of_ne_nil hne
  have hc := hw c List.mem_cons_self
  apply opensInstance_of_ne (isIndent_of_visible (isBlank_of_isKeywordChar hc))
  rintro rfl
  cases hc

mutual
/-- Cutting goes through the text of every value. The induction is on the text, together with lists and their
items. -/
theorem ValueText.through {v : Value} {t : List Char} (ht : ValueText v t) {r : List Char}
    (hr : Closed r) : ∃ bs, Through t r bs :=
  match ht with
  | @ValueText.simple _ t b b' ht hb hb' => by
    have hdelimited := hb'.delimited hr.delimited
    obtain ⟨bs, hbs⟩ := ht.through hdelimited
    have hequals : Stops (· == '=') (skipBlanks (b' ++ r)) := by rw [hr.skipBlanks hb']; exact hr.stops_equals
    have hopens := ht.opensInstance_append hdelimited.stops_isDigit hequals
    have hafter := hbs.append (Through.of_blanks hb' hr.opensInstance_eq_false)
    rw [← List.append_assoc] at hopens
    exact ⟨_, hafter.blanks_append hb hopens⟩
  | @ValueText.list vs t b b' ht hb hb' => by
    obtain ⟨bs, hbs⟩ := ht.through (b' ++ r)
    have hopens := ht.opensInstance_append (b' ++ r)
    have hafter := hbs.append (Through.of_blanks hb' hr.opensInstance_eq_false)
    rw [← List.append_assoc] at hopens
    exact ⟨_, hafter.blanks_append hb hopens⟩
  | @ValueText.typed name vs t b b' hn ht hb hb' => by
    obtain ⟨bs, hbs⟩ := ht.through (b' ++ r)
    have hafter := hbs.append (Through.of_blanks hb' hr.opensInstance_eq_false)
    have hname : Through name (t ++ b' ++ r) [] :=
      .of_isInert fun c hc => isInert_of_isKeywordChar (hn.isKeywordChar c hc)
    have hopens := opensInstance_word hn.ne_nil hn.isKeywordChar (t ++ b' ++ r)
    rw [← List.append_assoc] at hopens
    exact ⟨_, (hname.append hafter).blanks_append hb hopens⟩

/-- It goes through the text of every list. -/
theorem ListText.through {vs : List Value} {t : List Char} (ht : ListText vs t) (r : List Char) :
    ∃ bs, Through t r bs :=
  match ht with
  | .nil hb => by
    have hclose : Through [')'] r [] := .singleton rfl
    exact ⟨_, (hclose.blanks_append hb (opensInstance_of_ne rfl (by decide) _)).cons rfl⟩
  | .items ht => by
    obtain ⟨bs, hbs⟩ := ht.through r
    have hclose : Through [')'] r [] := .singleton rfl
    exact ⟨_, (hbs.append hclose).cons rfl⟩

/-- It goes through items up to the bracket behind them. -/
theorem ItemsText.through {vs : List Value} {t : List Char} (ht : ItemsText vs t) (r : List Char) :
    ∃ bs, Through t (')' :: r) bs :=
  match ht with
  | .last ht => ht.through ⟨_, _, rfl, .inr rfl⟩
  | .more ht ht' => by
    obtain ⟨bs', hbs'⟩ := ht'.through r
    obtain ⟨bs, hbs⟩ := ht.through ⟨_, _, rfl, .inl rfl⟩
    exact ⟨_, hbs.append (hbs'.cons rfl)⟩
end

/-- Blanks at the end are trimmed. -/
lemma trimEnd_append_blanks (s : List Char) {b : List Char} (hb : Blanks b) :
    trimEnd (s ++ b) = trimEnd s := by
  have hreverse : Blanks b.reverse := fun c hc => hb c (List.mem_reverse.mp hc)
  rw [trimEnd, List.reverse_append]
  exact congrArg List.reverse (skipBlanks_append hreverse)

/-- White space around a statement is all that trimming takes away. -/
lemma trim_statement {b b' : List Char} (s : List Char) (hb : Blanks b) (hb' : Blanks b') :
    trim (b ++ '#' :: (s ++ ';' :: b')) = '#' :: (s ++ [';']) := by
  rw [trim, skipBlanks_blanks_cons hb rfl]
  have hsplit : '#' :: (s ++ ';' :: b') = (('#' :: s) ++ [';']) ++ b' := by simp
  rw [hsplit, trimEnd_append_blanks _ hb', trimEnd_append_singleton _ rfl]
  rfl

/-- A trimmed text of an instance ends with its semicolon, and cutting gets there through it. -/
lemma InstanceText.through {raw : RawInstance} {t : List Char} (ht : InstanceText raw t)
    (htrim : trim t = t) : ∃ body bs, t = body ++ [';'] ∧ Begins body ∧ Through body [';'] bs := by
  cases ht with
  | @intro id name vs list b b₁ b₂ b₃ b₄ b₅ ds value ne_nil isKey ht hb hb₁ hb₂ hb₃ hb₄ hb₅ =>
    obtain ⟨bs, hlist⟩ := ht.through (b₄ ++ [';'])
    have hend : Through b₄ [';'] [] := .of_blanks hb₄ (opensInstance_of_ne rfl (by decide) _)
    have hafter := (hlist.append hend).blanks_append hb₃ (by
      rw [List.append_assoc]
      exact ht.opensInstance_append _)
    have hname : Through name ((b₃ ++ (list ++ b₄)) ++ [';']) [] :=
      .of_isInert fun c hc => isInert_of_isKeywordChar (isKey c hc)
    have hword := (hname.append hafter).blanks_append hb₂ (by
      rw [List.append_assoc]
      exact opensInstance_word ne_nil isKey _)
    have hequals := (hword.cons (c := '=') rfl).blanks_append hb₁ (opensInstance_of_ne rfl (by decide) _)
    have hdigits : Through ds.chars ((b₁ ++ '=' :: (b₂ ++ (name ++ (b₃ ++ (list ++ b₄))))) ++ [';']) [] :=
      .of_isInert ds.isInert
    have hbody := (hdigits.append hequals).cons (c := '#') rfl
    refine ⟨_, _, ?_, ?_, hbody⟩
    · rw [← htrim]
      refine Eq.trans ?_ (trim_statement (ds.chars ++ (b₁ ++ '=' :: (b₂ ++ (name ++ (b₃ ++ (list ++ b₄))))))
        hb hb₅)
      simp only [List.append_assoc, List.cons_append]
    · exact ⟨List.cons_ne_nil _ _, stops_cons.mpr rfl, stops_cons.mpr rfl⟩

/-! ## Statements -/

/-- Cutting makes no characters. -/
lemma length_cut_le (mode : Mode) (taken s : List Char) :
    (cut mode taken s).taken.length + (cut mode taken s).rest.length ≤ taken.length + s.length := by
  induction s generalizing mode taken with
  | nil => exact Nat.le_refl _
  | cons c s ih =>
    rw [cut]
    split
    · simp only [List.length_cons]
      omega
    · split
      · simp only [List.length_cons]
        omega
      · have hle := ih (mode.step c s) (c :: taken)
        simp only [List.length_cons] at hle ⊢
        omega

/-- The text of a statement is not longer than what is cut for it. -/
lemma length_text_statementHere (here : Cursor) :
    here.statementHere.1.text.length ≤ (cut .plain [] here.rest).taken.length := by
  have htrim : ∀ s : List Char, (trimEnd s).length ≤ s.length := by
    intro s
    rw [trimEnd, List.length_reverse]
    exact (length_dropWhile_le isBlank s.reverse).trans_eq List.length_reverse
  rw [Cursor.statementHere]
  split
  · simp
  · simpa using htrim (cut .plain [] here.rest).taken.reverse
  · simpa using htrim (cut .plain [] here.rest).taken.reverse

/-- A text without white space around it that is read as an instance is cut off as one statement if cutting
finds nothing in its binaries. If it finds the end of a statement in one of them, and nothing in those
before, then the first statement is shorter than the text. -/
theorem statements_of_parse {t : List Char} {offset : Nat} {raw : RawInstance}
    (ht : RawInstance.parse t offset = .ok raw) (htrim : trim t = t) :
    ((∀ b ∈ binaries t, Quiet b) → statements t = [⟨0, t, true⟩]) ∧
      ∀ pre b post, binaries t = pre ++ b :: post → (∀ b' ∈ pre, Quiet b') → Splits b →
        ∃ st rest, statements t = st :: rest ∧ st.text.length < t.length := by
  obtain ⟨body, bs, rfl, hbegins, hbody⟩ := (parse_eq_ok_iff.mp ht).through htrim
  have hbinaries : binaries (body ++ [';']) = bs := by
    rw [hbody.binaries, binaries_of_ne (by decide) (by decide), binaries, List.append_nil]
  rw [hbinaries]
  constructor
  · intro hquiet
    have hcut : cut .plain [] (body ++ [';']) = ⟨';' :: body.reverse, .semicolon, []⟩ := by
      rw [hbody.passes hquiet, List.append_nil, cut, if_pos ⟨rfl, rfl⟩]
    have hnext := next?_of_cut hbegins hcut 0
    rw [statements, Cursor.start, statements_of_next? hnext, statements_of_next?_none rfl]
    rfl
  · intro pre b post hbs hpre hb
    have hrest := hbody.stops pre b post hbs hpre hb []
    have hle := length_cut_le .plain [] (body ++ [';'])
    have htext := length_text_statementHere ⟨0, body ++ [';']⟩
    have hnext : (Cursor.start (body ++ [';'])).next? =
        some (Cursor.statementHere ⟨0, body ++ [';']⟩) := by
      simp only [Cursor.start, Cursor.next?, skipTrivia_of_begins hbegins]
      rw [if_neg (by simp)]
    generalize Cursor.statementHere ⟨0, body ++ [';']⟩ = found at hnext htext
    obtain ⟨st, there⟩ := found
    refine ⟨st, there.statements.map (·.1), by rw [statements, statements_of_next? hnext]; rfl, ?_⟩
    simp only [List.length_nil, List.length_singleton] at hle hrest htext
    omega

/-- An instance with a semicolon in a string, a binary of digits, and a reference on a new line. -/
def quietInstance : List Char := "#1=A('a;b',\"0F\",(\n#2));".toList

/-- The semicolon in the string does not end the statement. -/
theorem statements_quietInstance :
    RawInstance.parse quietInstance 0 = .ok ⟨1, "A", [.text "a;b", .text "0F", .list [.ref 2]]⟩ ∧
      trim quietInstance = quietInstance ∧ (∀ b ∈ binaries quietInstance, Quiet b) ∧
      statements quietInstance = [⟨0, quietInstance, true⟩] := by
  have hparse : RawInstance.parse quietInstance 0 =
      .ok ⟨1, "A", [.text "a;b", .text "0F", .list [.ref 2]]⟩ := by cbv
  have htrim : trim quietInstance = quietInstance := by cbv
  have hbinaries : binaries quietInstance = [['0', 'F']] := by cbv
  have hquiet : ∀ b ∈ binaries quietInstance, Quiet b := by
    rw [hbinaries]
    exact List.forall_mem_singleton.mpr (quiet_of_isPlain (by simp [isPlain]))
  exact ⟨hparse, htrim, hquiet, (statements_of_parse hparse htrim).1 hquiet⟩

/-- An instance with a semicolon in a binary. -/
def splitInstance : List Char := "#1=A(\"a;b\");".toList

/-- The semicolon in the binary does. -/
theorem statements_splitInstance :
    RawInstance.parse splitInstance 0 = .ok ⟨1, "A", [.text "a;b"]⟩ ∧
      trim splitInstance = splitInstance ∧
      statements splitInstance = [⟨0, "#1=A(\"a;".toList, true⟩, ⟨8, "b\");".toList, true⟩] := by
  refine ⟨by cbv, by cbv, ?_⟩
  have hchars : splitInstance = ['#', '1', '=', 'A', '(', '"', 'a', ';', 'b', '"', ')', ';'] := by cbv
  have hfirst : Cursor.next? ⟨0, ['#', '1', '=', 'A', '(', '"', 'a', ';', 'b', '"', ')', ';']⟩ =
      some (⟨0, ['#', '1', '=', 'A', '(', '"', 'a', ';'], true⟩, ⟨8, ['b', '"', ')', ';']⟩) := by rfl
  have hsecond : Cursor.next? ⟨8, ['b', '"', ')', ';']⟩ =
      some (⟨8, ['b', '"', ')', ';'], true⟩, ⟨12, []⟩) := by rfl
  rw [statements, Cursor.start, hchars, statements_of_next? hfirst, statements_of_next? hsecond,
    statements_of_next?_none rfl]
  cbv

end BuildingModel.Exchange
