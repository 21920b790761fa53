import BuildingModel.Exchange.Instance
import BuildingModel.Proofs.Exchange.LiteralText

/-!
# Texts of values and instances

The grammar of nested values: `ValueText v t` says that `t` is a text of the value `v`, `ListText vs t`
that it is a bracketed list of values. White space may stand around each value, but not between the name
of a typed value and its bracket. `ListText.read` and `InstanceText.read` say that the readers give back
what a text of the grammar stands for.
-/

namespace BuildingModel.Exchange

open Text

/-! ## The readers without the bounds of their rests -/

def readValue? (s : List Char) : Option (Value × List Char) :=
  (value? s).map fun (v, r) => (v, r.1)

def readItems (s : List Char) : List Value × List Char := ((items s).1, (items s).2.1)

def readMoreItems (s : List Char) : List Value × List Char := ((moreItems s).1, (moreItems s).2.1)

/-- A parameter list is read up to its closing bracket. -/
lemma parameterList_bracket (s : List Char) :
    parameterList ('(' :: s) =
      match skipBlanks (readItems s).2 with
      | ')' :: r => .ok ((readItems s).1, r)
      | r => .error r := by
  rw [parameterList, parameters.eq_def]
  simp only [readItems]
  split
  · rename_i h
    simp only [h]
    rfl
  · rename_i h
    split
    · rename_i h'
      exact absurd h' (h _)
    · rfl

/-- A text that does not begin with a bracket is no list. -/
lemma parameterList_of_stops {s : List Char} (hs : Stops (· == '(') s) :
    parameterList s = .error s := by
  rw [parameterList, parameters.eq_def]
  split
  · rw [stops_cons] at hs
    cases hs
  · rfl

/-- Items are read one by one. The equation hides how the recursion is bounded. -/
lemma readItems_eq (s : List Char) :
    readItems s =
      match readValue? s with
      | some (v, r) => (v :: (readMoreItems r).1, (readMoreItems r).2)
      | none => ([], s) := by
  rw [readItems, readValue?, items.eq_def]
  cases value? s with
  | none => rfl
  | some found => rfl

/-- A value is read as a simple one, a list or a typed one. The equation hides how the recursion is bounded. -/
lemma readValue?_eq (s : List Char) :
    readValue? s =
      match simple? (skipBlanks s) with
      | some (v, r) => some (v, skipBlanks r)
      | none =>
        match parameterList (skipBlanks s) with
        | .ok (vs, r) => some (.list vs, skipBlanks r)
        | .error _ =>
          match run? isKeywordChar (skipBlanks s) with
          | some (name, r) =>
            match parameterList r with
            | .ok (args, r') => some (.typed (String.ofList (upperCase name)) args, skipBlanks r')
            | .error _ => none
          | none => none := by
  rw [readValue?, value?.eq_def]
  simp only
  split
  · rename_i h
    simp only [h]
    rfl
  · rename_i h
    simp only [h, parameterList]
    cases parameters (skipBlanks s) with
    | ok found => rfl
    | error e =>
      simp only [Except.map]
      split
      · rename_i name r hrun
        simp only [hrun]
        cases parameters r with
        | ok found => rfl
        | error e => rfl
      · rename_i hrun
        simp only [hrun]
        rfl

/-- The end of a list of items. -/
lemma readMoreItems_of_stops {s : List Char} (hs : Stops (· == ',') s) : readMoreItems s = ([], s) := by
  rw [readMoreItems, moreItems.eq_def]
  split
  · rw [stops_cons] at hs
    cases hs
  · rfl

/-- After a comma the items go on as at the front of a list. -/
lemma readMoreItems_comma {s : List Char} (hs : (readValue? s).isSome = true) :
    readMoreItems (',' :: s) = readItems s := by
  rw [readMoreItems, moreItems.eq_def, readItems, items.eq_def]
  rw [readValue?] at hs
  cases hvalue : value? s with
  | none => simp [hvalue] at hs
  | some found => simp only [hvalue]

/-! ## White space -/

/-- A text of white space. -/
def Blanks (b : List Char) : Prop := ∀ c ∈ b, isBlank c = true

/-- White space is skipped. -/
lemma skipBlanks_append {b s : List Char} (hb : Blanks b) : skipBlanks (b ++ s) = skipBlanks s :=
  List.dropWhile_append_of_pos hb

/-- What is visible is not skipped. -/
lemma skipBlanks_cons {c : Char} {s : List Char} (hc : isBlank c = false) :
    skipBlanks (c :: s) = c :: s :=
  List.dropWhile_cons_of_neg (by rw [hc]; decide)

/-- White space before the end of a literal is its end, too. -/
lemma Blanks.delimited {b r : List Char} (hb : Blanks b) (hr : Delimited r) : Delimited (b ++ r) := by
  cases b with
  | nil => exact hr
  | cons c b =>
    rw [List.cons_append, delimited_cons, isDelimiter, hb c List.mem_cons_self]
    rfl

/-- A text that begins with something other than white space. -/
def Visible (s : List Char) : Prop := ∃ c r, s = c :: r ∧ isBlank c = false

/-- Nothing is skipped before what is visible. -/
lemma Visible.skipBlanks {s : List Char} (hs : Visible s) (r : List Char) :
    skipBlanks (s ++ r) = s ++ r := by
  obtain ⟨c, s, rfl, hc⟩ := hs
  exact skipBlanks_cons hc

/-- White space is skipped up to what is visible. -/
lemma Visible.skipBlanks_blanks {b s : List Char} (hs : Visible s) (hb : Blanks b) (r : List Char) :
    Text.skipBlanks (b ++ (s ++ r)) = s ++ r := by
  rw [skipBlanks_append hb, hs.skipBlanks]

/-- The characters of keywords are visible. -/
lemma isBlank_of_isKeywordChar {c : Char} (hc : isKeywordChar c = true) : isBlank c = false := by
  by_contra hblank
  rw [Bool.not_eq_false] at hblank
  rw [isKeywordChar_of_isDelimiter (by rw [isDelimiter, hblank]; rfl)] at hc
  cases hc

lemma Digits.visible (ds : Digits) : Visible ds.chars := by
  obtain ⟨c, cs, hcs⟩ := List.exists_cons_of_ne_nil ds.ne_nil
  have hc := isDigit_iff.mp (ds.isDigit c (by rw [hcs]; exact List.mem_cons_self))
  exact ⟨c, cs, hcs, isBlank_of_isKeywordChar (isKeywordChar_iff.mpr (by omega))⟩

/-- A visible text stays visible with more behind it. -/
lemma Visible.append {s : List Char} (hs : Visible s) (r : List Char) : Visible (s ++ r) := by
  obtain ⟨c, s, rfl, hc⟩ := hs
  exact ⟨c, s ++ r, rfl, hc⟩

/-- A sign before a visible text is visible. -/
lemma Sign.visible_append (sign : Sign) {s : List Char} (hs : Visible s) : Visible (sign.chars ++ s) := by
  cases sign with
  | none => exact hs
  | plus => exact ⟨_, _, rfl, rfl⟩
  | minus => exact ⟨_, _, rfl, rfl⟩

/-- The text of a simple value is visible. -/
lemma SimpleText.visible {v : Value} {t : List Char} (ht : SimpleText v t) : Visible t := by
  cases ht with
  | real t => exact t.sign.visible_append (t.whole.visible.append _)
  | integer sign ds value => exact sign.visible_append ds.visible
  | ref | text | binary | enum | omitted | derived => exact ⟨_, _, rfl, rfl⟩

/-- What follows a value in a list. -/
def Closed (r : List Char) : Prop := ∃ c s, r = c :: s ∧ (c = ',' ∨ c = ')')

/-- White space is skipped up to what closes a value. -/
lemma Closed.skipBlanks {b r : List Char} (hr : Closed r) (hb : Blanks b) : skipBlanks (b ++ r) = r := by
  obtain ⟨c, s, rfl, rfl | rfl⟩ := hr
  · rw [skipBlanks_append hb, skipBlanks_cons rfl]
  · rw [skipBlanks_append hb, skipBlanks_cons rfl]

/-- What closes a value ends a literal. -/
lemma Closed.delimited {r : List Char} (hr : Closed r) : Delimited r := by
  obtain ⟨c, s, rfl, rfl | rfl⟩ := hr
  · exact delimited_cons.mpr rfl
  · exact delimited_cons.mpr rfl

/-! ## The grammar -/

/-- The name of a typed value: a word that does not read as an integer. -/
structure TypeWord (name : List Char) : Prop where
  ne_nil : name ≠ []
  isKeywordChar : ∀ c ∈ name, isKeywordChar c = true
  not_integer : integer? name = none

mutual
/-- The text of a value with the white space around it. -/
inductive ValueText : Value → List Char → Prop where
  | simple {v t b b'} (ht : SimpleText v t) (hb : Blanks b) (hb' : Blanks b') :
      ValueText v (b ++ (t ++ b'))
  | list {vs t b b'} (ht : ListText vs t) (hb : Blanks b) (hb' : Blanks b') :
      ValueText (.list vs) (b ++ (t ++ b'))
  | typed {name vs t b b'} (hn : TypeWord name) (ht : ListText vs t) (hb : Blanks b) (hb' : Blanks b') :
      ValueText (.typed (String.ofList (upperCase name)) vs) (b ++ (name ++ (t ++ b')))

/-- The text of a list: brackets around values with commas between them. -/
inductive ListText : List Value → List Char → Prop where
  | nil {b} (hb : Blanks b) : ListText [] ('(' :: (b ++ [')']))
  | items {vs t} (ht : ItemsText vs t) : ListText vs ('(' :: (t ++ [')']))

/-- The text of one or more values with commas between them. -/
inductive ItemsText : List Value → List Char → Prop where
  | last {v t} (ht : ValueText v t) : ItemsText [v] t
  | more {v t vs t'} (ht : ValueText v t) (ht' : ItemsText vs t') : ItemsText (v :: vs) (t ++ ',' :: t')
end

/-! ## Reading texts of the grammar -/

/-- The name of a type is visible. -/
lemma TypeWord.visible {name : List Char} (hn : TypeWord name) : Visible name := by
  obtain ⟨c, cs, rfl⟩ := List.exists_cons_of_ne_nil hn.ne_nil
  exact ⟨c, cs, rfl, isBlank_of_isKeywordChar (hn.isKeywordChar c List.mem_cons_self)⟩

/-- A run ends before a character of another class. -/
lemma run?_append_cons {p : Char → Bool} {d : Char} (hd : p d = false) (s r : List Char) :
    run? p (s ++ d :: r) = (run? p s).map fun (w, rest) => (w, rest ++ d :: r) := by
  cases hrun : run? p s with
  | none =>
    apply run?_eq_none
    cases s with
    | nil => exact stops_cons.mpr hd
    | cons c s =>
      rw [List.cons_append, stops_cons]
      by_contra hc
      rw [Bool.not_eq_false] at hc
      simp [run?, hc] at hrun
  | some found =>
    obtain ⟨w, rest⟩ := found
    obtain ⟨⟨hne, hw⟩, rfl, hrest⟩ := run?_eq_some_iff.mp hrun
    have hstop : Stops p (rest ++ d :: r) := by
      cases rest with
      | nil => exact stops_cons.mpr hd
      | cons c rest => exact stops_cons.mpr (stops_cons.mp hrest)
    rw [List.append_assoc, run?_append hne hw hstop]
    rfl

/-- Reading a sign does not look beyond an opening bracket. -/
lemma sign_append_bracket (s r : List Char) :
    sign (s ++ '(' :: r) = ((sign s).1, (sign s).2 ++ '(' :: r) := by
  unfold sign
  cases s with
  | nil => rfl
  | cons c s =>
    split
    · rename_i h
      cases h
      rfl
    · rename_i h
      cases h
      rfl
    · rename_i hminus hplus
      split
      · rename_i h
        cases h
        exact absurd rfl (hminus _)
      · rename_i h
        cases h
        exact absurd rfl (hplus _)
      · rfl

/-- A word reads as an integer before a bracket exactly if it does by itself. -/
lemma integer?_append_bracket (s r : List Char) :
    integer? (s ++ '(' :: r) = (integer? s).map fun (v, rest) => (v, rest ++ '(' :: r) := by
  rw [integer?, integer?, sign_append_bracket]
  simp only [run?_append_cons (rfl : Char.isDigit '(' = false)]
  cases run? Char.isDigit (sign s).2 with
  | none => rfl
  | some found =>
    simp only [Option.map_some]
    split
    · rfl
    · rfl

/-- There is no point in a word. -/
lemma real?_append_bracket {s : List Char} (hs : ∀ c ∈ s, isKeywordChar c = true) (r : List Char) :
    real? (s ++ '(' :: r) = none := by
  rw [real?, sign_append_bracket]
  simp only [run?_append_cons (rfl : Char.isDigit '(' = false)]
  cases hrun : run? Char.isDigit (sign s).2 with
  | none => rfl
  | some found =>
    obtain ⟨w, rest⟩ := found
    cases rest with
    | nil => rfl
    | cons c rest =>
      obtain ⟨g, hsign, -⟩ := Sign.exists_eq s
      obtain ⟨-, hdigits, -⟩ := run?_eq_some_iff.mp hrun
      have hmem : c ∈ s := by
        rw [hsign, hdigits]
        simp
      simp only [Option.map_some, List.cons_append]
      split
      · rename_i h
        cases h
        exact absurd (hs _ hmem) (by decide)
      · rfl

/-- A type name and the bracket after it are no simple value. -/
lemma TypeWord.simple?_eq_none {name : List Char} (hn : TypeWord name) (r : List Char) :
    simple? (name ++ '(' :: r) = none := by
  apply simple?_eq_none_of_opens
  · exact real?_append_bracket hn.isKeywordChar r
  · rw [integer?_append_bracket, hn.not_integer]
    rfl
  · obtain ⟨c, cs, rfl⟩ := List.exists_cons_of_ne_nil hn.ne_nil
    have hc := isKeywordChar_iff.mp (hn.isKeywordChar c List.mem_cons_self)
    rw [List.cons_append, stops_cons]
    simp only [opensSimple, Bool.or_eq_false_iff, beq_eq_false_iff_ne, ne_eq, ← Char.toNat_inj,
      Char.reduceToNat]
    omega

/-- The name of a type does not begin with a bracket. -/
lemma TypeWord.stops_bracket {name : List Char} (hn : TypeWord name) {r : List Char} :
    Stops (· == '(') (name ++ r) := by
  obtain ⟨c, cs, rfl⟩ := List.exists_cons_of_ne_nil hn.ne_nil
  rw [List.cons_append, stops_cons, beq_eq_false_iff_ne]
  rintro rfl
  exact absurd (hn.isKeywordChar _ List.mem_cons_self) (by decide)

/-- A list begins with its bracket. -/
lemma ListText.eq_cons {vs : List Value} {t : List Char} (ht : ListText vs t) : ∃ s, t = '(' :: s := by
  cases ht with
  | nil hb => exact ⟨_, rfl⟩
  | items ht => exact ⟨_, rfl⟩

lemma ListText.visible {vs : List Value} {t : List Char} (ht : ListText vs t) : Visible t := by
  obtain ⟨s, rfl⟩ := ht.eq_cons
  exact ⟨_, _, rfl, rfl⟩

/-- Where no value stands, a list of items is empty. -/
lemma readItems_blanks {b : List Char} (hb : Blanks b) (r : List Char) :
    readItems (b ++ ')' :: r) = ([], b ++ ')' :: r) := by
  have hskip : skipBlanks (b ++ ')' :: r) = ')' :: r := by
    rw [skipBlanks_append hb, skipBlanks_cons rfl]
  have hsimple : simple? (')' :: r) = none := simple?_eq_none (stops_cons.mpr rfl) (stops_cons.mpr rfl)
  rw [readItems_eq, readValue?_eq, hskip, hsimple, parameterList_of_stops (stops_cons.mpr rfl)]
  simp only [run?_eq_none (stops_cons.mpr (rfl : isKeywordChar ')' = false))]

mutual
/-- A value is read back from each of its texts. -/
theorem ValueText.read {v : Value} {t : List Char} (ht : ValueText v t) {r : List Char}
    (hr : Closed r) : readValue? (t ++ r) = some (v, r) :=
  match ht with
  | .simple ht hb hb' => by
    have hread := ht.read (hb'.delimited hr.delimited)
    simp only [List.append_assoc]
    rw [readValue?_eq, ht.visible.skipBlanks_blanks hb, hread]
    simp only [hr.skipBlanks hb']
  | .list ht hb hb' => by
    have hread := fun r => ht.read r
    obtain ⟨s, rfl⟩ := ht.eq_cons
    have hsimple : ∀ r, simple? ('(' :: s ++ r) = none := fun _ =>
      simple?_eq_none (stops_cons.mpr rfl) (stops_cons.mpr rfl)
    simp only [List.append_assoc]
    rw [readValue?_eq, ht.visible.skipBlanks_blanks hb, hsimple]
    simp only [hread, hr.skipBlanks hb']
  | .typed hn ht hb hb' => by
    have hread := fun r => ht.read r
    obtain ⟨s, rfl⟩ := ht.eq_cons
    have hrun := fun r => run?_append (r := '(' :: r) hn.ne_nil hn.isKeywordChar (stops_cons.mpr rfl)
    simp only [List.append_assoc, List.cons_append] at hread ⊢
    rw [readValue?_eq, hn.visible.skipBlanks_blanks hb, hn.simple?_eq_none,
      parameterList_of_stops hn.stops_bracket]
    simp only [hrun, hread, hr.skipBlanks hb']

/-- A list is read back from each of its texts, whatever follows. -/
theorem ListText.read {vs : List Value} {t : List Char} (ht : ListText vs t) (r : List Char) :
    parameterList (t ++ r) = .ok (vs, r) :=
  match ht with
  | .nil hb => by
    simp only [List.cons_append, List.append_assoc, List.nil_append]
    rw [parameterList_bracket]
    simp only [readItems_blanks hb, skipBlanks_append hb, skipBlanks_cons (rfl : isBlank ')' = false)]
  | .items ht => by
    simp only [List.cons_append, List.append_assoc, List.nil_append]
    rw [parameterList_bracket]
    simp only [(ht.read r).1, skipBlanks_cons (rfl : isBlank ')' = false)]

/-- Items are read back up to the closing bracket. -/
theorem ItemsText.read {vs : List Value} {t : List Char} (ht : ItemsText vs t) (r : List Char) :
    readItems (t ++ ')' :: r) = (vs, ')' :: r) ∧ (readValue? (t ++ ')' :: r)).isSome = true :=
  match ht with
  | .last ht => by
    have hread := ht.read (r := ')' :: r) ⟨_, _, rfl, .inr rfl⟩
    rw [readItems_eq, hread]
    exact ⟨by simp only [readMoreItems_of_stops (s := ')' :: r) (stops_cons.mpr rfl)], rfl⟩
  | @ItemsText.more v t vs t' ht ht' => by
    obtain ⟨hitems, hsome⟩ := ht'.read r
    have hread := ht.read (r := ',' :: (t' ++ ')' :: r)) ⟨_, _, rfl, .inl rfl⟩
    simp only [List.append_assoc, List.cons_append]
    rw [readItems_eq, hread]
    exact ⟨by simp only [readMoreItems_comma hsome, hitems], rfl⟩
end

/-! ## Instances -/

/-- The text of an instance: `#1 = NAME ( … ) ;`. -/
inductive InstanceText : RawInstance → List Char → Prop where
  | intro {id name vs list b b₁ b₂ b₃ b₄ b₅} (ds : Digits)
      (value : Number.digitsValue ds.chars = id.toNat) (ne_nil : name ≠ [])
      (isKeywordChar : ∀ c ∈ name, isKeywordChar c = true) (ht : ListText vs list)
      (hb : Blanks b) (hb₁ : Blanks b₁) (hb₂ : Blanks b₂) (hb₃ : Blanks b₃) (hb₄ : Blanks b₄)
      (hb₅ : Blanks b₅) :
      InstanceText ⟨id, String.ofList (upperCase name), vs⟩
        (b ++ '#' :: (ds.chars ++ (b₁ ++ '=' :: (b₂ ++ (name ++ (b₃ ++ (list ++ (b₄ ++ ';' :: b₅))))))))

/-- White space is skipped to the end. -/
lemma skipBlanks_of_blanks {b : List Char} (hb : Blanks b) : skipBlanks b = [] :=
  List.dropWhile_eq_nil_iff.mpr hb

/-- White space is skipped up to a visible character. -/
lemma skipBlanks_blanks_cons {b s : List Char} {c : Char} (hb : Blanks b) (hc : isBlank c = false) :
    skipBlanks (b ++ c :: s) = c :: s := by
  rw [skipBlanks_append hb, skipBlanks_cons hc]

/-- A word ends before white space, or before what follows it. -/
lemma Blanks.stops_isKeywordChar {b r : List Char} (hb : Blanks b) (hr : Stops isKeywordChar r) :
    Stops isKeywordChar (b ++ r) := by
  cases b with
  | nil => exact hr
  | cons c b =>
    rw [List.cons_append, stops_cons]
    exact isKeywordChar_of_isDelimiter (by rw [isDelimiter, hb c List.mem_cons_self]; rfl)

/-- An instance is read back from each of its texts. -/
theorem InstanceText.read {raw : RawInstance} {t : List Char} (ht : InstanceText raw t) :
    instanceOf t = .ok raw := by
  cases ht with
  | @intro id name vs list b b₁ b₂ b₃ b₄ b₅ ds value ne_nil isKey ht hb hb₁ hb₂ hb₃ hb₄ hb₅ =>
    have hid : ∀ r, entityId? (ds.chars ++ (b₁ ++ '=' :: r)) = some (id, b₁ ++ '=' :: r) := fun _ =>
      entityId?_append ds (hb₁.stops_isKeywordChar (stops_cons.mpr rfl)).isDigit value
    have hkeyword : ∀ r, keyword (b₂ ++ (name ++ (b₃ ++ (list ++ r)))) = .ok (name, list ++ r) := by
      intro r
      have hstop : Stops isKeywordChar (b₃ ++ (list ++ r)) := by
        obtain ⟨s, rfl⟩ := ht.eq_cons
        exact hb₃.stops_isKeywordChar (stops_cons.mpr rfl)
      have hvisible : Visible name := by
        obtain ⟨c, cs, rfl⟩ := List.exists_cons_of_ne_nil ne_nil
        exact ⟨c, cs, rfl, isBlank_of_isKeywordChar (isKey c List.mem_cons_self)⟩
      rw [keyword, hvisible.skipBlanks_blanks hb₂]
      simp only [run?_append ne_nil isKey hstop, ht.visible.skipBlanks_blanks hb₃]
    have hend : statementEnd (b₄ ++ ';' :: b₅) = .ok () := by
      rw [statementEnd, skipBlanks_blanks_cons hb₄ rfl]
      simp only [expect, if_true, bind, Except.bind, skipBlanks_of_blanks hb₅]
    rw [instanceOf, skipBlanks_blanks_cons hb rfl]
    simp only [expect, if_true, bind, Except.bind, hid, skipBlanks_blanks_cons hb₁ (rfl : isBlank '=' = false),
      hkeyword, ht.read, hend]
    rfl

end BuildingModel.Exchange
