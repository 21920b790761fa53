import BuildingModel.Proofs.Exchange.Passage
import BuildingModel.Proofs.Exchange.Table

/-!
# Writing and reading back

`writeFile` writes entities one on a line, without any white space inside. What it writes is in the
grammar of instances and passes the cutting, so that reading the file gives back exactly the entities, in
order, and no problem. Real numbers are written by any function whose texts are read back as the number
they were written for.
-/

namespace BuildingModel

open Exchange Text

/-! ## Writing -/

/-- The text of an integer. -/
def writeInteger (n : Int) : List Char :=
  if n < 0 then '-' :: Nat.toDigits 10 n.natAbs else Nat.toDigits 10 n.natAbs

namespace Value

variable (showReal : Float → List Char)

mutual
/-- The text of a value. -/
def write : Value → List Char
  | .integer n => writeInteger n.toInt
  | .real x => showReal x
  | .text s => '\'' :: (doubled '\'' s.toList ++ ['\''])
  | .ref id => '#' :: Nat.toDigits 10 id.toNat
  | .list items => '(' :: (writeItems items ++ [')'])
  | .enum name => '.' :: (name.toList ++ ['.'])
  | .typed name args => name.toList ++ '(' :: (writeItems args ++ [')'])
  | .omitted => ['$']
  | .derived => ['*']

/-- The texts of some values, with commas between them. -/
def writeItems : List Value → List Char
  | [] => []
  | [v] => v.write
  | v :: w :: vs => v.write ++ ',' :: writeItems (w :: vs)
end

end Value

/-- The text of an instance, without the semicolon. -/
def Exchange.RawInstance.write (showReal : Float → List Char) (e : RawInstance) : List Char :=
  '#' :: (Nat.toDigits 10 e.id.toNat ++
    '=' :: (e.typeName.toList ++ '(' :: (Value.writeItems showReal e.params ++ [')'])))

/-- Instances, each on a line of its own. -/
def writeLines (showReal : Float → List Char) (es : List RawInstance) : List Char :=
  es.flatMap fun e => e.write showReal ++ [';', '\n']

/-- A keyword on a line of its own, and what follows the line. -/
def keywordLine (word : String) (r : List Char) : List Char := word.toList ++ ';' :: '\n' :: r

/-- What follows a keyword may be added at its end. -/
lemma keywordLine_append (word : String) (r s : List Char) :
    keywordLine word r ++ s = keywordLine word (r ++ s) := by
  simp [keywordLine]

/-- A file without a header whose data section has the given instances. -/
def writeFile (showReal : Float → List Char) (es : List RawInstance) : List Char :=
  keywordLine "ISO-10303-21" (keywordLine "DATA"
    (writeLines showReal es ++ keywordLine "ENDSEC" ("END-ISO-10303-21".toList ++ [';'])))

/-! ## What can be written -/

/-- A number is read back from the text that is written for it. -/
def ReadsBack (showReal : Float → List Char) (x : Float) : Prop :=
  ∃ t : RealText, showReal x = t.chars ∧ t.decimal.toFloat = x

/-- A name of a type: capitals, digits, underscores and hyphens. -/
structure IsTypeName (name : String) : Prop where
  ne_empty : name ≠ ""
  chars : ∀ c ∈ name.toList, c.isUpper = true ∨ c.isDigit = true ∨ c = '_' ∨ c = '-'

/-- The values whose texts have all their names in order. -/
inductive Value.Writable (showReal : Float → List Char) : Value → Prop where
  | integer (n : Int64) : Writable showReal (.integer n)
  | real {x : Float} (hx : ReadsBack showReal x) : Writable showReal (.real x)
  | text (s : String) : Writable showReal (.text s)
  | ref (id : EntityId) : Writable showReal (.ref id)
  | list {vs : List Value} (hvs : ∀ v ∈ vs, Writable showReal v) : Writable showReal (.list vs)
  | enum {name : String} (hne : name ≠ "") (hname : ∀ c ∈ name.toList, isNameChar c = true) :
      Writable showReal (.enum name)
  | typed {name : String} {vs : List Value} (hname : IsTypeName name)
      (hhead : ∀ c ∈ name.toList.head?, c.isUpper = true ∨ c = '_') (hvs : ∀ v ∈ vs, Writable showReal v) :
      Writable showReal (.typed name vs)
  | omitted : Writable showReal .omitted
  | derived : Writable showReal .derived

/-- The instances that can be written. -/
structure Exchange.RawInstance.Writable (showReal : Float → List Char) (e : RawInstance) : Prop where
  typeName : IsTypeName e.typeName
  params : ∀ v ∈ e.params, v.Writable showReal

lemma isUpper_iff {c : Char} : c.isUpper = true ↔ 65 ≤ c.toNat ∧ c.toNat ≤ 90 := by
  simp [Char.isUpper, UInt32.le_iff_toNat_le]

namespace IsTypeName

variable {name : String}

lemma ne_nil (hname : IsTypeName name) : name.toList ≠ [] := by
  intro h
  exact hname.ne_empty (String.toList_eq_nil_iff.mp h)

/-- The characters of names are those of keywords. -/
lemma isKeywordChar (hname : IsTypeName name) : ∀ c ∈ name.toList, isKeywordChar c = true := by
  intro c hc
  rw [isKeywordChar_iff]
  rcases hname.chars c hc with h | h | rfl | rfl
  · exact .inl (isUpper_iff.mp h)
  · exact .inr (.inr (.inl (isDigit_iff.mp h)))
  · decide
  · decide

/-- A name in capitals stays as it is. -/
lemma upperCase_eq (hname : IsTypeName name) : String.ofList (upperCase name.toList) = name := by
  have hchars : ∀ c ∈ name.toList, c.toUpper = c := by
    intro c hc
    have hlower : ¬ (97 ≤ c.toNat ∧ c.toNat ≤ 122) := by
      rcases hname.chars c hc with h | h | rfl | rfl
      · have := isUpper_iff.mp h
        omega
      · have := isDigit_iff.mp h
        omega
      · decide
      · decide
    exact dif_neg (by rw [UInt32.le_iff_toNat_le, UInt32.le_iff_toNat_le]; exact hlower)
  rw [upperCase, List.map_congr_left hchars, List.map_id', String.ofList_toList]

/-- A name that begins with a capital or an underscore is a word, and no integer. -/
lemma typeWord (hname : IsTypeName name)
    (hhead : ∀ c ∈ name.toList.head?, c.isUpper = true ∨ c = '_') : TypeWord name.toList := by
  refine ⟨hname.ne_nil, hname.isKeywordChar, (not_number ?_).2⟩
  obtain ⟨c, cs, hcs⟩ := List.exists_cons_of_ne_nil hname.ne_nil
  have hc : 65 ≤ c.toNat := by
    rcases hhead c (by rw [hcs]; rfl) with h | rfl
    · exact (isUpper_iff.mp h).1
    · decide
  have hsign : sign (c :: cs) = (false, c :: cs) := by
    rw [sign.eq_3]
    · intro r h
      rw [(List.cons.inj h).1] at hc
      simp at hc
    · intro r h
      rw [(List.cons.inj h).1] at hc
      simp at hc
  rw [hcs, hsign, stops_cons, ← Bool.not_eq_true, isDigit_iff]
  omega

end IsTypeName

/-! ## What is written is in the grammar -/

lemma blanks_nil : Blanks [] := fun _ hc => absurd hc List.not_mem_nil

/-- An integer has the text that is written for it, also the least one. -/
lemma simpleText_writeInteger (n : Int64) : SimpleText (.integer n) (writeInteger n.toInt) := by
  have hvalue := Digits.digitsValue_ofNat n.toInt.natAbs
  unfold writeInteger
  split
  · rename_i hneg
    refine SimpleText.integer .minus (.ofNat n.toInt.natAbs) ?_
    show -(Number.digitsValue _ : Int) = n.toInt
    rw [hvalue]
    omega
  · rename_i hneg
    refine SimpleText.integer .none (.ofNat n.toInt.natAbs) ?_
    show (Number.digitsValue _ : Int) = n.toInt
    rw [hvalue]
    omega

/-- The text of a simple value is the text of a value. -/
lemma valueText_of_simpleText {v : Value} {t : List Char} (ht : SimpleText v t) : ValueText v t := by
  have h := ValueText.simple ht blanks_nil blanks_nil
  rwa [List.nil_append, List.append_nil] at h

/-- Items in brackets are the text of a list. -/
lemma listText_writeItems {showReal : Float → List Char} {vs : List Value}
    (hvs : ∀ v ∈ vs, ValueText v (v.write showReal)) :
    ListText vs ('(' :: (Value.writeItems showReal vs ++ [')'])) := by
  cases vs with
  | nil => exact .nil blanks_nil
  | cons v vs =>
    apply ListText.items
    induction vs generalizing v with
    | nil =>
      rw [Value.writeItems]
      exact .last (hvs v List.mem_cons_self)
    | cons w vs ih =>
      rw [Value.writeItems]
      exact .more (hvs v List.mem_cons_self) (ih w fun u hu => hvs u (List.mem_cons_of_mem _ hu))

/-- The values that have no parts. -/
def Value.isSimple : Value → Bool
  | .list _ | .typed _ _ => false
  | _ => true

/-- A simple value has the text that is written for it. -/
lemma Value.Writable.simpleText {showReal : Float → List Char} {v : Value} (hv : v.Writable showReal)
    (hsimple : v.isSimple = true) : SimpleText v (v.write showReal) := by
  cases hv with
  | integer n =>
    rw [Value.write]
    exact simpleText_writeInteger n
  | @real x hx =>
    obtain ⟨t, ht, hback⟩ := hx
    rw [Value.write, ht, ← hback]
    exact .real t
  | text s =>
    have h := SimpleText.text s.toList
    rw [String.ofList_toList] at h
    rwa [Value.write]
  | ref id =>
    rw [Value.write]
    exact .ref (.ofNat id.toNat) (Digits.digitsValue_ofNat _)
  | list hvs => cases hsimple
  | @enum name hne hname =>
    have h := SimpleText.enum (fun h => hne (String.toList_eq_nil_iff.mp h)) hname
    rw [String.ofList_toList] at h
    rwa [Value.write]
  | typed hname hhead hvs => cases hsimple
  | omitted =>
    rw [Value.write]
    exact .omitted
  | derived =>
    rw [Value.write]
    exact .derived

/-- Values with parts, and all others. -/
lemma Value.Writable.induction {showReal : Float → List Char}
    {motive : (v : Value) → v.Writable showReal → Prop}
    (simple : ∀ v hv, v.isSimple = true → motive v hv)
    (list : ∀ vs hvs, (∀ v h, motive v (hvs v h)) → motive (.list vs) (.list hvs))
    (typed : ∀ name vs hname hhead hvs, (∀ v h, motive v (hvs v h)) →
      motive (.typed name vs) (.typed hname hhead hvs))
    {v : Value} (hv : v.Writable showReal) : motive v hv := by
  induction hv with
  | integer n => exact simple _ (.integer n) rfl
  | real hx => exact simple _ (.real hx) rfl
  | text s => exact simple _ (.text s) rfl
  | ref id => exact simple _ (.ref id) rfl
  | list hvs ih => exact list _ hvs ih
  | enum hne hname => exact simple _ (.enum hne hname) rfl
  | typed hname hhead hvs ih => exact typed _ _ hname hhead hvs ih
  | omitted => exact simple _ .omitted rfl
  | derived => exact simple _ .derived rfl

/-- Every value has the text that is written for it. The induction is on the value. -/
lemma Value.Writable.valueText {showReal : Float → List Char} {v : Value} (hv : v.Writable showReal) :
    ValueText v (v.write showReal) := by
  induction hv using Value.Writable.induction with
  | simple v hv hsimple => exact valueText_of_simpleText (hv.simpleText hsimple)
  | list vs hvs ih =>
    have h := ValueText.list (listText_writeItems ih) blanks_nil blanks_nil
    rwa [List.nil_append, List.append_nil] at h
  | typed name vs hname hhead hvs ih =>
    have h := ValueText.typed (hname.typeWord hhead) (listText_writeItems ih) blanks_nil blanks_nil
    rwa [List.nil_append, List.append_nil, hname.upperCase_eq] at h

/-- Every instance has the text that is written for it, with its semicolon. -/
lemma Exchange.RawInstance.Writable.instanceText {showReal : Float → List Char} {e : RawInstance}
    (he : e.Writable showReal) : InstanceText e (e.write showReal ++ [';']) := by
  have hlist := listText_writeItems fun v hv => (he.params v hv).valueText
  have h := InstanceText.intro (.ofNat e.id.toNat) (Digits.digitsValue_ofNat _) he.typeName.ne_nil
    he.typeName.isKeywordChar hlist blanks_nil blanks_nil blanks_nil blanks_nil blanks_nil blanks_nil
  rw [he.typeName.upperCase_eq] at h
  simpa [Exchange.RawInstance.write, Digits.ofNat] using h

/-! ## What is written passes -/

/-- Cutting goes through integers. -/
lemma passes_writeInteger (n : Int) : Passes (writeInteger n) := by
  unfold writeInteger
  split
  · exact (Digits.ofNat n.natAbs).passes.cons rfl
  · exact (Digits.ofNat n.natAbs).passes

/-- It goes through brackets around what it goes through. -/
lemma passes_brackets {t : List Char} (ht : Passes t) : Passes ('(' :: (t ++ [')'])) :=
  (ht.append (passes_singleton rfl)).cons rfl

/-- It goes through items if it goes through each of them. -/
lemma passes_writeItems {showReal : Float → List Char} {vs : List Value}
    (hvs : ∀ v ∈ vs, Passes (v.write showReal)) : Passes (Value.writeItems showReal vs) := by
  cases vs with
  | nil =>
    rw [Value.writeItems]
    exact passes_nil
  | cons v vs =>
    induction vs generalizing v with
    | nil =>
      rw [Value.writeItems]
      exact hvs v List.mem_cons_self
    | cons w vs ih =>
      rw [Value.writeItems]
      exact (hvs v List.mem_cons_self).append
        ((ih w fun u hu => hvs u (List.mem_cons_of_mem _ hu)).cons rfl)

/-- It goes through every value that is written. -/
lemma Value.Writable.passes {showReal : Float → List Char} {v : Value} (hv : v.Writable showReal) :
    Passes (v.write showReal) := by
  induction hv with
  | integer n =>
    rw [Value.write]
    exact passes_writeInteger _
  | @real x hx =>
    obtain ⟨t, ht, -⟩ := hx
    rw [Value.write, ht]
    exact t.passes
  | text s =>
    rw [Value.write]
    exact passes_literal _
  | ref id =>
    rw [Value.write]
    exact (Digits.ofNat id.toNat).passes.cons rfl
  | list hvs ih =>
    rw [Value.write]
    exact passes_brackets (passes_writeItems ih)
  | enum hne hname =>
    rw [Value.write]
    have hword := passes_of_isKeywordChar fun c hc => isKeywordChar_of_isNameChar (hname c hc)
    exact (hword.append (passes_singleton rfl)).cons rfl
  | typed hname hhead hvs ih =>
    rw [Value.write]
    exact (passes_of_isKeywordChar hname.isKeywordChar).append (passes_brackets (passes_writeItems ih))
  | omitted =>
    rw [Value.write]
    exact passes_singleton rfl
  | derived =>
    rw [Value.write]
    exact passes_singleton rfl

/-- It goes through every instance that is written. -/
lemma Exchange.RawInstance.Writable.passes {showReal : Float → List Char} {e : RawInstance}
    (he : e.Writable showReal) : Passes (e.write showReal) := by
  have hlist := passes_brackets (passes_writeItems fun v hv => (he.params v hv).passes)
  have hname := passes_of_isKeywordChar he.typeName.isKeywordChar
  exact ((Digits.ofNat e.id.toNat).passes.append ((hname.append hlist).cons rfl)).cons rfl

/-! ## Reading back -/

/-- The entity that an instance stands for. -/
def Exchange.RawInstance.entity (e : RawInstance) : Entity := ⟨e.id, Kind.ofName e.typeName, e.params⟩

/-- A statement may begin with a hash sign. -/
lemma begins_hash (t : List Char) : Begins ('#' :: t) :=
  ⟨List.cons_ne_nil _ _, stops_cons.mpr rfl, stops_cons.mpr rfl⟩

/-- A line with a text of an instance becomes the next entity, if its number is new. -/
lemma run_instance {e : RawInstance} {t r : List Char} (ht : InstanceText e (('#' :: t) ++ [';']))
    (hcut : cut .plain [] (('#' :: t) ++ ';' :: '\n' :: r) =
      ⟨';' :: ('#' :: t).reverse, .semicolon, '\n' :: r⟩)
    {p : ReadState} (hdata : p.here = some .data) (hnew : p.table.contains e.id = false) (position : Nat) :
    ∃ finish, p.run ⟨position, ('#' :: t) ++ ';' :: '\n' :: r⟩ =
      ReadState.run { p with table := p.table.push e.entity } ⟨finish, r⟩ := by
  have hkeyword : Statement.keyword? ⟨position, ('#' :: t) ++ [';'], true⟩ = none :=
    keyword?_eq_none rfl rfl position
  have hends : Statement.endsFile ⟨position, ('#' :: t) ++ [';'], true⟩ = false := by
    rw [Statement.endsFile, hkeyword]
    rfl
  have hact : Statement.act ⟨position, ('#' :: t) ++ [';'], true⟩ p.here = .entity e := by
    simp only [Statement.act, hkeyword, hdata, dataAct, if_true, RawInstance.parse, complete, ht.read]
    rfl
  have hrun := p.run_next (next?_of_cut (begins_hash t) hcut position) hends
  rw [ReadState.step, hact, ReadState.apply, hnew, ReadState.run_newline] at hrun
  exact ⟨_, hrun⟩

/-- Written lines add their entities in order. -/
lemma run_writeLines {showReal : Float → List Char} {es : List RawInstance}
    (hes : ∀ e ∈ es, e.Writable showReal) (hids : (es.map (·.id)).Nodup) {p : ReadState}
    (hdata : p.here = some .data) (hnew : ∀ e ∈ es, p.table.contains e.id = false) (position : Nat)
    (r : List Char) :
    ∃ finish, p.run ⟨position, writeLines showReal es ++ r⟩ =
      ReadState.run { p with table := (es.map (·.entity)).foldl EntityTable.push p.table } ⟨finish, r⟩ := by
  induction es generalizing p position with
  | nil => exact ⟨position, rfl⟩
  | cons e es ih =>
    have he := hes e List.mem_cons_self
    rw [List.map_cons, List.nodup_cons] at hids
    have hcut : cut .plain [] (e.write showReal ++ ';' :: '\n' :: (writeLines showReal es ++ r)) =
        ⟨';' :: (e.write showReal).reverse, .semicolon, '\n' :: (writeLines showReal es ++ r)⟩ := by
      rw [he.passes, List.append_nil, cut, if_pos ⟨rfl, rfl⟩]
    obtain ⟨finish, hrun⟩ := run_instance he.instanceText hcut hdata (hnew e List.mem_cons_self) position
    have hnew' : ∀ f ∈ es, (p.table.push e.entity).contains f.id = false := by
      intro f hf
      have hne : e.id ≠ f.id := fun h => hids.1 (h ▸ List.mem_map_of_mem hf)
      rw [EntityTable.contains_push, hnew f (List.mem_cons_of_mem _ hf), Bool.or_false, beq_eq_false_iff_ne]
      exact hne
    obtain ⟨last, hlast⟩ := ih (fun f hf => hes f (List.mem_cons_of_mem _ hf)) hids.2
      (p := { p with table := p.table.push e.entity }) hdata hnew' finish
    have hlines : writeLines showReal (e :: es) ++ r =
        e.write showReal ++ ';' :: '\n' :: (writeLines showReal es ++ r) := by
      simp [writeLines]
    refine ⟨last, ?_⟩
    rw [hlines]
    exact hrun.trans hlast

/-- A statement may begin with a word. -/
lemma begins_word {w : List Char} (hne : w ≠ []) (hw : ∀ c ∈ w, isKeywordChar c = true) : Begins w := by
  obtain ⟨c, cs, rfl⟩ := List.exists_cons_of_ne_nil hne
  have hc := hw c List.mem_cons_self
  have hvisible := isBlank_of_isKeywordChar hc
  refine ⟨List.cons_ne_nil _ _, stops_cons.mpr ?_, stops_cons.mpr ?_⟩
  · by_contra hblank
    rw [Bool.not_eq_false] at hblank
    rw [isBlank_of_isAsciiBlank hblank] at hvisible
    cases hvisible
  · rw [beq_eq_false_iff_ne]
    rintro rfl
    exact absurd hc (by decide)

/-- The keywords that a written file has. -/
def sectionWords : List String := ["ISO-10303-21", "DATA", "ENDSEC", "END-ISO-10303-21"]

/-- The keywords of a file are words. -/
lemma isKeywordChar_sectionWords {word : String} (hword : word ∈ sectionWords) :
    word.toList ≠ [] ∧ ∀ c ∈ word.toList, isKeywordChar c = true := by
  revert word
  simp [sectionWords, isKeywordChar, isNameChar]

/-- A keyword on a line of its own is read. -/
lemma run_keywordLine (p : ReadState) (word : String) (hword : word ∈ sectionWords)
    (hlast : word ≠ "END-ISO-10303-21") (position : Nat) (r : List Char) :
    ∃ finish st, p.run ⟨position, keywordLine word r⟩ =
      (p.apply (keywordAct st word)).run ⟨finish, r⟩ := by
  obtain ⟨hne, hw⟩ := isKeywordChar_sectionWords hword
  have hends : Statement.endsFile ⟨position, word.toList ++ [';'], true⟩ = false := by
    rw [Statement.endsFile, keyword?_word hne hw]
    exact decide_eq_false fun h => hlast (String.toList_injective (Option.some.inj h))
  obtain ⟨finish, hrun⟩ := p.run_statement (begins_word hne hw) (passes_of_isKeywordChar hw) position
    ('\n' :: r) hends
  refine ⟨finish + 1, ⟨position, word.toList ++ [';'], true⟩, ?_⟩
  rw [keywordLine, hrun, ReadState.run_newline, ReadState.step, Statement.act.eq_def, keyword?_word hne hw]
  simp only [String.ofList_toList]

/-- What the keywords of a file do. -/
lemma keywordAct_sections (st : Statement) :
    keywordAct st "ISO-10303-21" = .signature ∧ keywordAct st "DATA" = .openData ∧
      keywordAct st "ENDSEC" = .closeSection := by
  simp [keywordAct]

/-- Nothing is read from the end of a file on. -/
lemma run_endOfFile (p : ReadState) (position : Nat) (tail : List Char) :
    p.run ⟨position, "END-ISO-10303-21".toList ++ ';' :: tail⟩ = p := by
  obtain ⟨hne, hw⟩ := isKeywordChar_sectionWords
    (show "END-ISO-10303-21" ∈ sectionWords by simp [sectionWords])
  apply p.run_end (begins_word hne hw) (passes_of_isKeywordChar hw)
  rw [Statement.endsFile, keyword?_word hne hw]
  exact decide_eq_true rfl

/-- After the signature and the start of the data section its lines are read. -/
lemma run_opening (limit : Nat) (r : List Char) :
    ∃ first, ReadState.run { log := .empty limit }
        (Cursor.start (keywordLine "ISO-10303-21" (keywordLine "DATA" r))) =
      ReadState.run { signed := true, hasData := true, here := some .data, log := .empty limit }
        ⟨first, r⟩ := by
  obtain ⟨start, _, hsigned⟩ := run_keywordLine { log := .empty limit } "ISO-10303-21"
    (by simp [sectionWords]) (by simp) 0 (keywordLine "DATA" r)
  obtain ⟨first, _, hopened⟩ := run_keywordLine { signed := true, log := .empty limit } "DATA"
    (by simp [sectionWords]) (by simp) start r
  simp only [keywordAct_sections] at hsigned hopened
  refine ⟨first, ?_⟩
  rw [Cursor.start, hsigned, ReadState.apply, hopened]
  rfl

/-- The end of the data section and of the file adds nothing. -/
lemma run_closing (p : ReadState) (position : Nat) (tail : List Char) :
    p.run ⟨position, keywordLine "ENDSEC" ("END-ISO-10303-21".toList ++ ';' :: tail)⟩ =
      { p with here := none } := by
  obtain ⟨finish, _, hclosed⟩ := run_keywordLine p "ENDSEC" (by simp [sectionWords]) (by simp) position
    ("END-ISO-10303-21".toList ++ ';' :: tail)
  simp only [keywordAct_sections] at hclosed
  rw [hclosed, run_endOfFile]
  rfl

/-- The state after a written file: the entities have been added one after the other. -/
lemma readStatements_writeFile {showReal : Float → List Char} {es : List RawInstance}
    (hes : ∀ e ∈ es, e.Writable showReal) (hids : (es.map (·.id)).Nodup) (tail : List Char)
    (limit : Nat) :
    readStatements (writeFile showReal es ++ tail) limit =
      { signed := true, hasData := true, log := .empty limit,
        table := (es.map (·.entity)).foldl EntityTable.push {} } := by
  rw [readStatements_eq, writeFile, keywordLine_append, keywordLine_append,
    List.append_assoc, keywordLine_append, List.append_assoc, List.singleton_append]
  -- the signature, the start of the data section, the instances, and its end, one after the other
  obtain ⟨first, hopened⟩ := run_opening limit
    (writeLines showReal es ++ keywordLine "ENDSEC" ("END-ISO-10303-21".toList ++ ';' :: tail))
  obtain ⟨last, hlines⟩ := run_writeLines hes hids
    (p := { signed := true, hasData := true, here := some .data, log := .empty limit }) rfl
    (fun e _ => Std.HashMap.contains_empty) first
    (keywordLine "ENDSEC" ("END-ISO-10303-21".toList ++ ';' :: tail))
  rw [hopened, hlines, run_closing]

/-- What is read of a written file. -/
lemma ExchangeFile.parse_writeFile_eq {showReal : Float → List Char} {es : List RawInstance}
    (hes : ∀ e ∈ es, e.Writable showReal) (hids : (es.map (·.id)).Nodup) (tail : List Char) (limit : Nat) :
    ExchangeFile.parse (writeFile showReal es ++ tail) limit =
      .ok ⟨{}, (es.map (·.entity)).foldl EntityTable.push {}, .empty limit⟩ := by
  simp only [ExchangeFile.parse, readStatements_writeFile hes hids tail limit, if_true]

/-- A file that has been written is read back: its entities are those that were written, in order, and
there is no problem. What follows the file does not matter. -/
theorem ExchangeFile.parse_writeFile (showReal : Float → List Char) (es : List RawInstance)
    (hes : ∀ e ∈ es, e.Writable showReal) (hids : (es.map (·.id)).Nodup) (tail : List Char)
    (limit : Nat) :
    ∃ file, ExchangeFile.parse (writeFile showReal es ++ tail) limit = .ok file ∧
      file.entities = es.map (fun e => ⟨e.id, Kind.ofName e.typeName, e.params⟩) ∧
      file.log = .empty limit := by
  refine ⟨_, parse_writeFile_eq hes hids tail limit, ?_, rfl⟩
  rw [ExchangeFile.entities, EntityTable.entities_foldl_push]
  rfl

/-- Instances with a string that looks like the end of a statement and the start of another, the least
integer, empty lists and the greatest number of an entity. -/
def hardInstances : List RawInstance := [
  ⟨18446744073709551615, "IFC-WALL_2",
    [.text "it's;\n#9= /*", .list [.integer Int64.minValue, .list []], .typed "_LABEL" [.enum "1_t"],
      .ref 0, .real 1.5, .omitted, .derived]⟩,
  ⟨0, "-", []⟩]

/-- Both instances can be written. -/
lemma hardInstances_writable :
    ∀ e ∈ hardInstances, e.Writable fun _ => ['1', '.', '5'] := by
  have hreal : ReadsBack (fun _ => ['1', '.', '5']) 1.5 :=
    ⟨⟨.none, ⟨['1'], by simp, by simp⟩, ['5'], by simp, none⟩, rfl, rfl⟩
  have hlabel : (Value.typed "_LABEL" [.enum "1_t"]).Writable fun _ => ['1', '.', '5'] := by
    refine .typed ⟨by simp, by simp⟩ (by simp) ?_
    simp only [List.mem_singleton, forall_eq]
    exact .enum (by simp) (by simp [isNameChar])
  have hlist : (Value.list [.integer Int64.minValue, .list []]).Writable fun _ => ['1', '.', '5'] := by
    refine .list ?_
    simp only [List.mem_cons, List.not_mem_nil, or_false, forall_eq_or_imp, forall_eq]
    exact ⟨.integer _, .list (by simp)⟩
  simp only [hardInstances, List.mem_cons, List.not_mem_nil, or_false, forall_eq_or_imp, forall_eq]
  refine ⟨⟨⟨by simp, by simp⟩, ?_⟩, ⟨by simp, by simp⟩, by simp⟩
  simp only [List.mem_cons, List.not_mem_nil, or_false, forall_eq_or_imp, forall_eq]
  exact ⟨.text _, hlist, hlabel, .ref _, .real hreal, .omitted, .derived⟩

/-- The hard instances are read back. -/
theorem ExchangeFile.parse_writeFile_hardInstances :
    ∃ file, ExchangeFile.parse (writeFile (fun _ => ['1', '.', '5']) hardInstances ++ ['\n']) 50 = .ok file ∧
      file.entities = hardInstances.map (fun e => ⟨e.id, Kind.ofName e.typeName, e.params⟩) ∧
      file.log = .empty 50 :=
  ExchangeFile.parse_writeFile _ hardInstances hardInstances_writable (by decide) ['\n'] 50

end BuildingModel
