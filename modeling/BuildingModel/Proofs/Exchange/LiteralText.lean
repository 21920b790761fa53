import Mathlib
import BuildingModel.Exchange.Literal

/-!
# Texts of simple values

`SimpleText v t` says that `t` is one of the texts of the simple value `v`. It is the grammar that the
readers of literals follow: `SimpleText.read` says that each such text is read back as its value, and up
to its end, wherever a blank, a comma or a closing bracket follows it.
-/

namespace BuildingModel.Exchange

open Text Number

/-! ## Classes of characters -/

lemma isDigit_iff {c : Char} : c.isDigit = true ↔ 48 ≤ c.toNat ∧ c.toNat ≤ 57 := by
  simp [Char.isDigit, UInt32.le_iff_toNat_le]

/-- The codes of the characters of keywords. -/
lemma isKeywordChar_iff {c : Char} :
    isKeywordChar c = true ↔
      (65 ≤ c.toNat ∧ c.toNat ≤ 90) ∨ (97 ≤ c.toNat ∧ c.toNat ≤ 122) ∨
        (48 ≤ c.toNat ∧ c.toNat ≤ 57) ∨ c.toNat = 95 ∨ c.toNat = 45 := by
  simp only [isKeywordChar, isNameChar, Char.isAlphanum, Char.isAlpha, Char.isUpper, Char.isLower,
    Char.isDigit, UInt32.le_iff_toNat_le, Bool.or_eq_true, Bool.and_eq_true, decide_eq_true_eq,
    beq_iff_eq, ← Char.toNat_inj, ge_iff_le, Char.toNat_val, Char.reduceToNat, Char.reduceVal,
    UInt32.reduceToNat]
  omega

/-- Names are written with characters of keywords. -/
lemma isKeywordChar_of_isNameChar {c : Char} (h : isNameChar c = true) : isKeywordChar c = true := by
  rw [isKeywordChar, h, Bool.true_or]

/-- No character of a class stands at the front of a text. -/
def Stops (p : Char → Bool) (s : List Char) : Prop := ∀ c ∈ s.head?, p c = false

/-- Whether a class stands at the front is decided by the first character. -/
lemma stops_cons {p : Char → Bool} {c : Char} {s : List Char} : Stops p (c :: s) ↔ p c = false := by
  simp [Stops]

/-- The characters that may follow a value. -/
def isDelimiter (c : Char) : Bool := isBlank c || c == ',' || c == ')'

/-- A value may end before the text. -/
def Delimited (s : List Char) : Prop := ∀ c ∈ s.head?, isDelimiter c = true

/-- Whether a value may end is decided by the next character. -/
lemma delimited_cons {c : Char} {s : List Char} : Delimited (c :: s) ↔ isDelimiter c = true := by
  simp [Delimited]

/-- No character of a keyword ends a value. -/
lemma isKeywordChar_of_isDelimiter {c : Char} (h : isDelimiter c = true) : isKeywordChar c = false := by
  rw [← Bool.not_eq_true, isKeywordChar_iff]
  simp only [isDelimiter, isBlank, Bool.or_eq_true, Bool.and_eq_true, decide_eq_true_eq, beq_iff_eq,
    ← Char.toNat_inj, Char.reduceToNat] at h
  omega

/-- What follows a value is no character of a word. -/
lemma Delimited.stops_isKeywordChar {s : List Char} (hs : Delimited s) : Stops isKeywordChar s :=
  fun c hc => isKeywordChar_of_isDelimiter (hs c hc)

/-- Where no word goes on, no number goes on. -/
lemma Stops.isDigit {s : List Char} (hs : Stops isKeywordChar s) : Stops Char.isDigit s := by
  intro c hc
  have hkey := hs c hc
  rw [← Bool.not_eq_true, isKeywordChar_iff] at hkey
  rw [← Bool.not_eq_true, isDigit_iff]
  omega

/-- A number ends where a value may end. -/
lemma Delimited.stops_isDigit {s : List Char} (hs : Delimited s) : Stops Char.isDigit s :=
  hs.stops_isKeywordChar.isDigit

/-- Of the visible characters only the comma and the closing bracket may follow a value. -/
lemma Delimited.head_ne {s : List Char} (hs : Delimited s) {d : Char} (hd : isDelimiter d = false)
    (r : List Char) : s ≠ d :: r := by
  rintro rfl
  rw [delimited_cons, hd] at hs
  cases hs

/-- A literal ends where a value may end, since no quote follows. -/
lemma Delimited.stops_quote {s : List Char} (hs : Delimited s) {q : Char} (hq : isDelimiter q = false) :
    Stops (· == q) s := by
  intro c hc
  rw [beq_eq_false_iff_ne]
  rintro rfl
  rw [hs _ hc] at hq
  cases hq

/-! ## Runs of characters -/

/-- A run is taken as far as it goes. -/
lemma takeWhile_append_of_stops {p : Char → Bool} {w r : List Char} (hw : ∀ c ∈ w, p c = true)
    (hr : Stops p r) : (w ++ r).takeWhile p = w ∧ (w ++ r).dropWhile p = r := by
  rw [List.takeWhile_append_of_pos hw, List.dropWhile_append_of_pos hw]
  cases r with
  | nil => simp
  | cons c r =>
    rw [stops_cons] at hr
    simp [hr]

/-- What is left begins with another character. -/
lemma stops_dropWhile (p : Char → Bool) (s : List Char) : Stops p (s.dropWhile p) := by
  intro c hc
  have hhead := List.head?_dropWhile_not p s
  rw [hc] at hhead
  exact hhead

/-- A run that is not empty is found. -/
lemma run?_append {p : Char → Bool} {w r : List Char} (hne : w ≠ []) (hw : ∀ c ∈ w, p c = true)
    (hr : Stops p r) : run? p (w ++ r) = some (w, r) := by
  obtain ⟨htake, hdrop⟩ := takeWhile_append_of_stops hw hr
  obtain ⟨c, cs, rfl⟩ := List.exists_cons_of_ne_nil hne
  rw [run?, htake, hdrop]

/-- No run is found before another character. -/
lemma run?_eq_none {p : Char → Bool} {s : List Char} (hs : Stops p s) : run? p s = none := by
  cases s with
  | nil => rfl
  | cons c s =>
    rw [stops_cons] at hs
    simp [run?, hs]

/-- A run is found exactly if it is as long as it can be, and not empty. -/
lemma run?_eq_some_iff {p : Char → Bool} {s w r : List Char} :
    run? p s = some (w, r) ↔ (w ≠ [] ∧ ∀ c ∈ w, p c = true) ∧ s = w ++ r ∧ Stops p r := by
  constructor
  · intro h
    rw [run?] at h
    split at h
    · cases h
    · rename_i c cs hw
      cases h
      refine ⟨⟨List.cons_ne_nil c cs, ?_⟩, ?_, ?_⟩
      · rw [← hw]
        exact fun d hd => List.mem_takeWhile_imp hd
      · rw [← hw, List.takeWhile_append_dropWhile]
      · exact stops_dropWhile p s
  · rintro ⟨⟨hne, hw⟩, rfl, hr⟩
    exact run?_append hne hw hr

/-- A run of one or more digits. -/
structure Digits where
  chars : List Char
  ne_nil : chars ≠ []
  isDigit : ∀ c ∈ chars, c.isDigit = true

/-- Digits are a run. -/
lemma Digits.run? (ds : Digits) {r : List Char} (hr : Stops Char.isDigit r) :
    run? Char.isDigit (ds.chars ++ r) = some (ds.chars, r) :=
  run?_append ds.ne_nil ds.isDigit hr

/-- The digits of a whole number. -/
def Digits.ofNat (n : Nat) : Digits where
  chars := Nat.toDigits 10 n
  ne_nil := Nat.toDigits_ne_nil
  isDigit _ hc := Nat.isDigit_of_mem_toDigits (by decide) (by decide) hc

/-- The digits of a number have its value. -/
lemma Digits.digitsValue_ofNat (n : Nat) : digitsValue (ofNat n).chars = n :=
  Nat.ofDigitChars_toDigits (by decide) (by decide)

/-- An optional sign. -/
inductive Sign where
  | none
  | plus
  | minus

namespace Sign

def chars : Sign → List Char
  | .none => []
  | .plus => ['+']
  | .minus => ['-']

def isNegative : Sign → Bool
  | .minus => true
  | _ => false

/-- A sign is read back before anything that starts with a digit. -/
lemma read (sign : Sign) (ds : Digits) (r : List Char) :
    Exchange.sign (sign.chars ++ (ds.chars ++ r)) = (sign.isNegative, ds.chars ++ r) := by
  cases sign with
  | plus => rfl
  | minus => rfl
  | none =>
    obtain ⟨c, cs, hcs⟩ := List.exists_cons_of_ne_nil ds.ne_nil
    have hc := isDigit_iff.mp (ds.isDigit c (by rw [hcs]; exact List.mem_cons_self))
    rw [hcs, chars, List.nil_append, List.cons_append, Exchange.sign.eq_def]
    split
    · rename_i h
      cases h
      simp at hc
    · rename_i h
      cases h
      simp at hc
    · rfl

/-- Every text begins with a sign, though it may be an empty one. -/
lemma exists_eq (s : List Char) :
    ∃ sign : Sign, s = sign.chars ++ (Exchange.sign s).2 ∧ (Exchange.sign s).1 = sign.isNegative := by
  unfold Exchange.sign
  split
  · exact ⟨.minus, rfl, rfl⟩
  · exact ⟨.plus, rfl, rfl⟩
  · exact ⟨.none, rfl, rfl⟩

end Sign

/-! ## Numbers -/

/-- The power of ten of a real number. -/
structure PowerText where
  mark : Char
  mark_eq : mark = 'e' ∨ mark = 'E'
  sign : Sign
  digits : Digits

def PowerText.chars (p : PowerText) : List Char := p.mark :: (p.sign.chars ++ p.digits.chars)

def PowerText.value (p : PowerText) : Int := signedValue p.sign.isNegative p.digits.chars

/-- The text of a real number, cut into its parts: `-12.5E+3`. -/
structure RealText where
  sign : Sign
  whole : Digits
  /-- The digits after the point; there may be none. -/
  places : List Char
  isDigit_places : ∀ c ∈ places, c.isDigit = true
  power : Option PowerText

namespace RealText

def powerChars (t : RealText) : List Char := (t.power.map PowerText.chars).getD []

def powerValue (t : RealText) : Int := (t.power.map PowerText.value).getD 0

def chars (t : RealText) : List Char :=
  t.sign.chars ++ (t.whole.chars ++ '.' :: (t.places ++ t.powerChars))

/-- The number that the text stands for. -/
def decimal (t : RealText) : Decimal where
  negative := t.sign.isNegative
  digits := digitsValue (t.whole.chars ++ t.places)
  exponent := t.powerValue - t.places.length

/-- The power of ten of a real number is read, if there is one. -/
lemma power_read (t : RealText) {r : List Char} (hr : Delimited r) :
    Exchange.power (t.powerChars ++ r) = (t.powerValue, r) ∧ Stops Char.isDigit (t.powerChars ++ r) := by
  cases hp : t.power with
  | none =>
    simp only [powerChars, powerValue, hp, Option.map_none, Option.getD_none, List.nil_append]
    refine ⟨?_, hr.stops_isDigit⟩
    cases r with
    | nil => rfl
    | cons c r =>
      have hc : ¬ (c = 'e' ∨ c = 'E') := by
        rintro (rfl | rfl)
        · exact hr.head_ne (by decide) r rfl
        · exact hr.head_ne (by decide) r rfl
      rw [Exchange.power, if_neg hc]
  | some p =>
    simp only [powerChars, powerValue, hp, Option.map_some, Option.getD_some, PowerText.chars,
      List.cons_append, List.append_assoc]
    constructor
    · rw [Exchange.power, if_pos p.mark_eq, p.sign.read]
      simp only [p.digits.run? hr.stops_isDigit]
      rfl
    · rw [stops_cons]
      rcases p.mark_eq with h | h
      · rw [h]; decide
      · rw [h]; decide

/-- The text of a real number is read as the number that it stands for. -/
lemma read (t : RealText) {r : List Char} (hr : Delimited r) :
    real? (t.chars ++ r) = some (.real t.decimal.toFloat, r) := by
  obtain ⟨hpower, hstop⟩ := t.power_read hr
  obtain ⟨htake, hdrop⟩ := takeWhile_append_of_stops t.isDigit_places hstop
  have hpoint : Stops Char.isDigit ('.' :: (t.places ++ (t.powerChars ++ r))) := stops_cons.mpr rfl
  simp only [chars, List.append_assoc, List.cons_append]
  rw [real?, t.sign.read]
  simp only [t.whole.run? hpoint, htake, hdrop, hpower]
  rfl

end RealText

/-- An integer is no real number. -/
lemma real?_eq_none_of_integer (sign : Sign) (ds : Digits) {r : List Char} (hr : Delimited r) :
    real? (sign.chars ++ (ds.chars ++ r)) = none := by
  rw [real?, sign.read]
  simp only [ds.run? hr.stops_isDigit]
  split
  · rename_i heq
    cases heq
    exact absurd rfl (hr.head_ne (by decide) _)
  · rfl

/-- The text of an integer is read as the integer. -/
lemma integer?_append (sign : Sign) (ds : Digits) {n : Int64} {r : List Char} (hr : Delimited r)
    (hn : signedValue sign.isNegative ds.chars = n.toInt) :
    integer? (sign.chars ++ (ds.chars ++ r)) = some (.integer n, r) := by
  rw [integer?, sign.read]
  simp only [ds.run? hr.stops_isDigit, hn]
  rw [if_pos ⟨Int64.minValue_le_toInt n, Int64.toInt_le n⟩, Int64.ofInt_toInt]

/-- A text that starts neither with a sign nor with a digit is no number. -/
lemma not_number {s : List Char} (hs : Stops Char.isDigit (Exchange.sign s).2) :
    real? s = none ∧ integer? s = none := by
  rw [real?, integer?]
  simp only [run?_eq_none hs, and_self]

/-- The text of a number of an entity is read as the number. -/
lemma entityId?_append (ds : Digits) {id : EntityId} {r : List Char} (hr : Stops Char.isDigit r)
    (hid : digitsValue ds.chars = id.toNat) : entityId? (ds.chars ++ r) = some (id, r) := by
  rw [entityId?, ds.run? hr]
  simp only [hid]
  rw [if_pos id.toNat_lt_size]
  simp

/-! ## Strings -/

/-- A text in which each quote is written twice. -/
def doubled (quote : Char) (s : List Char) : List Char :=
  s.flatMap fun c => if c = quote then [quote, quote] else [c]

/-- A quote is written twice. -/
lemma doubled_cons_self (quote : Char) (s : List Char) :
    doubled quote (quote :: s) = quote :: quote :: doubled quote s := by
  simp [doubled]

lemma doubled_cons_of_ne {quote c : Char} (hc : c ≠ quote) (s : List Char) :
    doubled quote (c :: s) = c :: doubled quote s := by
  simp [doubled, hc]

/-- A quoted text ends at the first quote that is not doubled. -/
lemma quoted?_doubled {quote : Char} (s : List Char) {r : List Char} (hr : Stops (· == quote) r) :
    quoted? quote (doubled quote s ++ quote :: r) = some (doubled quote s, r) := by
  induction s with
  | nil =>
    cases r with
    | nil => simp [doubled, quoted?]
    | cons c r =>
      rw [stops_cons, beq_eq_false_iff_ne] at hr
      simp [doubled, quoted?, hr]
  | cons c s ih =>
    by_cases hc : c = quote
    · subst hc
      simp [doubled_cons_self, quoted?, ih]
    · -- the reader looks two characters ahead, so the text after `c` is cut once more
      obtain ⟨d, t, hd⟩ : ∃ d t, doubled quote s ++ quote :: r = d :: t :=
        List.exists_cons_of_ne_nil (by simp)
      rw [doubled_cons_of_ne hc, List.cons_append, hd, quoted?, if_neg hc, ← hd, ih]
      rfl

/-- Reading undoes the doubling. -/
lemma collapse_doubled (s : List Char) : collapse (doubled '\'' s) = s := by
  induction s with
  | nil => rfl
  | cons c s ih =>
    by_cases hc : c = '\''
    · subst hc
      rw [doubled_cons_self, collapse, ih]
    · rw [doubled_cons_of_ne hc, collapse, ih]
      intro _ h
      exact absurd h hc

/-! ## Simple values -/

/-- The text of a simple value. -/
inductive SimpleText : Value → List Char → Prop where
  | real (t : RealText) : SimpleText (.real t.decimal.toFloat) t.chars
  | integer {n : Int64} (sign : Sign) (ds : Digits)
      (value : signedValue sign.isNegative ds.chars = n.toInt) :
      SimpleText (.integer n) (sign.chars ++ ds.chars)
  | ref {id : EntityId} (ds : Digits) (value : digitsValue ds.chars = id.toNat) :
      SimpleText (.ref id) ('#' :: ds.chars)
  | text (s : List Char) :
      SimpleText (.text (String.ofList s)) ('\'' :: (doubled '\'' s ++ ['\'']))
  /-- A binary is kept with its doubled quotes. -/
  | binary (s : List Char) :
      SimpleText (.text (String.ofList (doubled '"' s))) ('"' :: (doubled '"' s ++ ['"']))
  | enum {w : List Char} (ne_nil : w ≠ []) (isNameChar : ∀ c ∈ w, isNameChar c = true) :
      SimpleText (.enum (String.ofList w)) ('.' :: (w ++ ['.']))
  | omitted : SimpleText .omitted ['$']
  | derived : SimpleText .derived ['*']

/-- The characters other than signs and digits with which a simple value can begin. -/
def opensSimple (c : Char) : Bool :=
  c == '#' || c == '\'' || c == '"' || c == '.' || c == '$' || c == '*'

/-- What is left to try where no number stands. -/
lemma simple?_of_not_number {s : List Char} (hs : Stops Char.isDigit (sign s).2) :
    simple? s = ((ref? s).or <| (string? s).or <| (enum? s).or (blank? s)) := by
  obtain ⟨hreal, hinteger⟩ := not_number hs
  rw [simple?, hreal, hinteger]
  rfl

/-- What is no number and does not begin like another simple value is none. -/
lemma simple?_eq_none_of_opens {s : List Char} (hreal : real? s = none) (hinteger : integer? s = none)
    (hs : Stops opensSimple s) : simple? s = none := by
  rw [simple?, hreal, hinteger]
  cases s with
  | nil => rfl
  | cons c s =>
    simp only [stops_cons, opensSimple, Bool.or_eq_false_iff, beq_eq_false_iff_ne] at hs
    obtain ⟨⟨⟨⟨⟨href, htext⟩, hbinary⟩, henum⟩, homitted⟩, hderived⟩ := hs
    have head_ne : ∀ d r, c ≠ d → c :: s = d :: r → False := fun d r hd h => hd (List.cons.inj h).1
    rw [ref?.eq_2 _ (head_ne _ · href), string?.eq_3 _ (head_ne _ · htext) (head_ne _ · hbinary),
      enum?.eq_2 _ (head_ne _ · henum), blank?.eq_3 _ (head_ne _ · homitted) (head_ne _ · hderived)]
    rfl

/-- A simple value does not begin with anything else. -/
lemma simple?_eq_none {s : List Char} (hnumber : Stops Char.isDigit (sign s).2)
    (hs : Stops opensSimple s) : simple? s = none := by
  obtain ⟨hreal, hinteger⟩ := not_number hnumber
  exact simple?_eq_none_of_opens hreal hinteger hs

/-- A simple value is read back from each of its texts. -/
theorem SimpleText.read {v : Value} {t r : List Char} (ht : SimpleText v t) (hr : Delimited r) :
    simple? (t ++ r) = some (v, r) := by
  cases ht with
  | real t => rw [simple?, t.read hr, Option.some_or]
  | integer sign ds value =>
    rw [List.append_assoc, simple?, real?_eq_none_of_integer sign ds hr,
      integer?_append sign ds hr value]
    rfl
  | ref ds value =>
    rw [List.cons_append, simple?_of_not_number (stops_cons.mpr rfl), ref?,
      entityId?_append ds hr.stops_isDigit value]
    rfl
  | text s =>
    simp only [List.cons_append, List.append_assoc, List.nil_append]
    rw [simple?_of_not_number (stops_cons.mpr rfl), string?, quoted?_doubled s (hr.stops_quote rfl)]
    show some (Value.text (String.ofList (collapse (doubled '\'' s))), r) = _
    rw [collapse_doubled]
  | binary s =>
    simp only [List.cons_append, List.append_assoc, List.nil_append]
    rw [simple?_of_not_number (stops_cons.mpr rfl), string?, quoted?_doubled s (hr.stops_quote rfl)]
    rfl
  | enum ne_nil isNameChar =>
    simp only [List.cons_append, List.append_assoc, List.nil_append]
    rw [simple?_of_not_number (stops_cons.mpr rfl), enum?,
      run?_append ne_nil isNameChar (stops_cons.mpr rfl)]
    rfl
  | omitted =>
    rw [List.cons_append, simple?_of_not_number (stops_cons.mpr rfl)]
    rfl
  | derived =>
    rw [List.cons_append, simple?_of_not_number (stops_cons.mpr rfl)]
    rfl

end BuildingModel.Exchange
