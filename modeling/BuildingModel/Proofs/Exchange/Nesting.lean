import BuildingModel.Proofs.Exchange.Boundary
import BuildingModel.Proofs.Exchange.Grammar

/-!
# Counting parameters by their commas

`Nesting` follows a text without reading any value in it: how many brackets are open, and whether a
quoted literal is. It gives the pairs of brackets of the text and the commas that stand at depth one. What
is read between a pair of brackets, at any depth, has no values if there is only white space, and
otherwise one value more than the pair has commas.
-/

namespace BuildingModel

/-! ## The lists of a value -/

mutual
/-- The bracketed lists of a value, in the order of their opening brackets. -/
def Value.lists : Value → List (List Value)
  | .list items => items :: Value.listsOf items
  | .typed _ args => args :: Value.listsOf args
  | _ => []

/-- The bracketed lists of some values. -/
def Value.listsOf : List Value → List (List Value)
  | [] => []
  | v :: vs => v.lists ++ Value.listsOf vs
end

end BuildingModel

namespace BuildingModel.Exchange

open Text

/-! ## Following a text -/

/-- Where a character stands: how many brackets are open and, in a quoted literal, which quote ends it. -/
structure Nesting where
  depth : Nat
  quote : Option Char
deriving DecidableEq

namespace Nesting

/-- Outside quoted literals. -/
def level (depth : Nat) : Nesting := ⟨depth, none⟩

/-- A doubled quote ends a literal and opens the next at once. -/
def step (n : Nesting) (c : Char) : Nesting :=
  match n.quote with
  | some q => if c = q then level n.depth else n
  | none =>
    if c = '\'' ∨ c = '"' then ⟨n.depth, some c⟩
    else if c = '(' then level (n.depth + 1)
    else if c = ')' then level (n.depth - 1)
    else n

/-- The commas at depth one outside quoted literals. -/
def commas (n : Nesting) : List Char → Nat
  | [] => 0
  | c :: s => (if c = ',' ∧ n = level 1 then 1 else 0) + (n.step c).commas s

/-- The text up to where no bracket is open any more. -/
def upToClose (n : Nesting) : List Char → List Char
  | [] => []
  | c :: s => if (n.step c).depth = 0 then [c] else c :: (n.step c).upToClose s

/-- The bracketed parts of a text: what stands from each opening bracket outside quoted literals up to
the bracket that closes it. -/
def pairs (n : Nesting) : List Char → List (List Char)
  | [] => []
  | c :: s =>
    if c = '(' ∧ n.quote = none then (level 0).upToClose (c :: s) :: (n.step c).pairs s
    else (n.step c).pairs s

/-! ## Texts in which nothing is counted -/

/-- The text leads from one place to another of the same depth, with no comma and no bracket between. -/
structure Uncounted (n m : Nesting) (t : List Char) : Prop where
  depth : m.depth = n.depth
  commas : ∀ r, n.commas (t ++ r) = m.commas r
  pairs : ∀ r, n.pairs (t ++ r) = m.pairs r
  upToClose : ∀ r, 0 < n.depth → n.upToClose (t ++ r) = t ++ m.upToClose r

variable {n m l : Nesting} {c q : Char} {s t : List Char} {d : Nat}

lemma Uncounted.nil : Uncounted n n [] where
  depth := rfl
  commas _ := rfl
  pairs _ := rfl
  upToClose _ _ := rfl

/-- Two texts lead on, one after the other. -/
lemma Uncounted.append (hs : Uncounted n m s) (ht : Uncounted m l t) : Uncounted n l (s ++ t) where
  depth := by rw [ht.depth, hs.depth]
  commas r := by rw [List.append_assoc, hs.commas, ht.commas]
  pairs r := by rw [List.append_assoc, hs.pairs, ht.pairs]
  upToClose r hn := by
    rw [List.append_assoc, hs.upToClose _ hn, ht.upToClose r (by rw [hs.depth]; exact hn), List.append_assoc]

/-- A single character leads on if it is none that counts here. -/
lemma Uncounted.singleton (hstep : n.step c = m) (hdepth : m.depth = n.depth)
    (huncounted : n.quote ≠ none ∨ c ≠ '(' ∧ c ≠ ',') : Uncounted n m [c] where
  depth := hdepth
  commas r := by
    have hcomma : ¬(c = ',' ∧ n = level 1) := by
      rintro ⟨hc, rfl⟩
      rcases huncounted with hquote | ⟨-, hne⟩
      · exact hquote rfl
      · exact hne hc
    rw [List.singleton_append, Nesting.commas, if_neg hcomma, hstep, Nat.zero_add]
  pairs r := by
    have hbracket : ¬(c = '(' ∧ n.quote = none) := by
      rintro ⟨hc, hnone⟩
      rcases huncounted with hquote | ⟨hne, -⟩
      · exact hquote hnone
      · exact hne hc
    rw [List.singleton_append, Nesting.pairs, if_neg hbracket, hstep]
  upToClose r hn := by
    rw [List.singleton_append, Nesting.upToClose, hstep, if_neg (by omega)]
    rfl

/-- The characters that neither quote, open, close nor part anything. -/
def isInner (c : Char) : Bool := c != '\'' && c != '"' && c != '(' && c != ')' && c != ','

/-- An inner character stays at its place. -/
lemma uncounted_singleton_of_isInner (hc : isInner c = true) : Uncounted (level d) (level d) [c] := by
  simp only [isInner, Bool.and_eq_true, bne_iff_ne] at hc
  obtain ⟨⟨⟨⟨hapostrophe, hquote⟩, hopen⟩, hclose⟩, hcomma⟩ := hc
  refine .singleton ?_ rfl (.inr ⟨hopen, hcomma⟩)
  simp [step, level, hapostrophe, hquote, hopen, hclose]

/-- Inner characters stay at their place. -/
lemma uncounted_of_isInner (ht : ∀ c ∈ t, isInner c = true) : Uncounted (level d) (level d) t := by
  induction t with
  | nil => exact .nil
  | cons c t ih =>
    obtain ⟨hc, ht⟩ := List.forall_mem_cons.mp ht
    exact (uncounted_singleton_of_isInner hc).append (ih ht)

/-- A quote leads into a literal. -/
lemma uncounted_quote (hq : q = '\'' ∨ q = '"') : Uncounted (level d) ⟨d, some q⟩ [q] := by
  refine .singleton (if_pos hq) rfl (.inr ?_)
  rcases hq with rfl | rfl
  · decide
  · decide

/-- In a literal only its own quote counts. -/
lemma uncounted_doubled (hq : q = '\'' ∨ q = '"') (s : List Char) :
    Uncounted ⟨d, some q⟩ (level d) (doubled q s ++ [q]) := by
  have hclose : Uncounted ⟨d, some q⟩ (level d) [q] := .singleton (if_pos rfl) rfl (.inl (Option.some_ne_none q))
  induction s with
  | nil => exact hclose
  | cons c s ih =>
    by_cases hc : c = q
    · -- between the two quotes nothing is quoted, and nothing stands there
      rw [hc, doubled_cons_self]
      exact hclose.append ((uncounted_quote hq).append ih)
    · have hother : Uncounted ⟨d, some q⟩ ⟨d, some q⟩ [c] := .singleton (if_neg hc) rfl (.inl (Option.some_ne_none q))
      rw [doubled_cons_of_ne hc]
      exact hother.append ih

/-- A quoted text, whatever is quoted. -/
lemma uncounted_literal (hq : q = '\'' ∨ q = '"') (s : List Char) :
    Uncounted (level d) (level d) (q :: (doubled q s ++ [q])) :=
  (uncounted_quote hq).append (uncounted_doubled hq s)

/-- The characters of keywords are inner ones. -/
lemma isInner_of_isKeywordChar (hc : isKeywordChar c = true) : isInner c = true := by
  rw [isKeywordChar_iff] at hc
  simp only [isInner, Bool.and_eq_true, bne_iff_ne, ne_eq, ← Char.toNat_inj, Char.reduceToNat]
  omega

lemma isInner_of_isBlank (hc : isBlank c = true) : isInner c = true := by
  simp only [isBlank, Bool.or_eq_true, Bool.and_eq_true, decide_eq_true_eq, beq_iff_eq] at hc
  simp only [isInner, Bool.and_eq_true, bne_iff_ne, ne_eq, ← Char.toNat_inj, Char.reduceToNat]
  omega

/-- All characters of numbers are. -/
lemma isInner_of_cases (hc : isKeywordChar c = true ∨ c = '.' ∨ c = '+') : isInner c = true := by
  rcases hc with hc | rfl | rfl
  · exact isInner_of_isKeywordChar hc
  · rfl
  · rfl

lemma isInner_digits (ds : Digits) : ∀ c ∈ ds.chars, isInner c = true :=
  fun c hc => isInner_of_isKeywordChar (isKeywordChar_of_isDigit (ds.isDigit c hc))

/-- Blanks stay at their place. -/
lemma uncounted_blanks (hb : Blanks t) : Uncounted (level d) (level d) t :=
  uncounted_of_isInner fun c hc => isInner_of_isBlank (hb c hc)

/-- A simple value has no brackets and no commas, other than quoted ones. -/
lemma uncounted_simple {v : Value} (ht : SimpleText v t) : Uncounted (level d) (level d) t := by
  cases ht with
  | real t => exact uncounted_of_isInner fun c hc => isInner_of_cases (t.chars_cases c hc)
  | integer sign ds value =>
    have hsign := uncounted_of_isInner (d := d) fun c hc => isInner_of_cases (sign.chars_cases c hc)
    exact hsign.append (uncounted_of_isInner (isInner_digits ds))
  | ref ds value => exact uncounted_of_isInner (List.forall_mem_cons.mpr ⟨rfl, isInner_digits ds⟩)
  | text s => exact uncounted_literal (.inl rfl) s
  | binary s => exact uncounted_literal (.inr rfl) s
  | @enum w ne_nil isName =>
    have hw := uncounted_of_isInner (d := d) fun c hc =>
      isInner_of_isKeywordChar (isKeywordChar_of_isNameChar (isName c hc))
    exact (uncounted_singleton_of_isInner rfl).append (hw.append (uncounted_singleton_of_isInner rfl))
  | omitted => exact uncounted_singleton_of_isInner rfl
  | derived => exact uncounted_singleton_of_isInner rfl

/-! ## Balanced texts -/

/-- Every bracket that opens in the text closes in it, and none of another text. It has the pairs of
brackets `ps`, and `k` commas outside them. -/
structure Balanced (t : List Char) (ps : List (List Char)) (k : Nat) : Prop where
  pairs : ∀ d r, (level d).pairs (t ++ r) = ps ++ (level d).pairs r
  upToClose : ∀ d r, (level (d + 1)).upToClose (t ++ r) = t ++ (level (d + 1)).upToClose r
  commas : ∀ r, (level 1).commas (t ++ r) = k + (level 1).commas r
  /-- Below the first bracket no comma counts. -/
  commas_deeper : ∀ d r, (level (d + 2)).commas (t ++ r) = (level (d + 2)).commas r

variable {ps ps' : List (List Char)} {k k' : Nat}

/-- A text that stays at its place is balanced. -/
lemma Balanced.of_uncounted (ht : ∀ d, Uncounted (level d) (level d) t) : Balanced t [] 0 where
  pairs d r := (ht d).pairs r
  upToClose d r := (ht (d + 1)).upToClose r (Nat.succ_pos d)
  commas r := by rw [(ht 1).commas r, Nat.zero_add]
  commas_deeper d r := (ht (d + 2)).commas r

lemma balanced_blanks (hb : Blanks t) : Balanced t [] 0 := .of_uncounted fun _ => uncounted_blanks hb

/-- Balanced texts follow each other; their pairs and commas are put together. -/
lemma Balanced.append (hs : Balanced s ps k) (ht : Balanced t ps' k') :
    Balanced (s ++ t) (ps ++ ps') (k + k') where
  pairs d r := by rw [List.append_assoc, hs.pairs, ht.pairs, List.append_assoc]
  upToClose d r := by rw [List.append_assoc, hs.upToClose, ht.upToClose, List.append_assoc]
  commas r := by rw [List.append_assoc, hs.commas, ht.commas, Nat.add_assoc]
  commas_deeper d r := by rw [List.append_assoc, hs.commas_deeper, ht.commas_deeper]

/-- A comma is counted once. -/
lemma Balanced.comma : Balanced [','] [] 1 where
  pairs _ _ := rfl
  upToClose _ _ := rfl
  commas _ := rfl
  commas_deeper d r := by
    rw [List.singleton_append, Nesting.commas, if_neg (by simp [level]), Nat.zero_add]
    rfl

/-- The bracketed part that begins with a bracket is what stands up to the partner of this one. -/
lemma Balanced.upToClose_bracket (ht : Balanced t ps k) (r : List Char) :
    (level 0).upToClose ('(' :: (t ++ ')' :: r)) = '(' :: (t ++ [')']) := by
  have hclose : (level 1).upToClose (')' :: r) = [')'] := rfl
  calc (level 0).upToClose ('(' :: (t ++ ')' :: r))
      = '(' :: (level 1).upToClose (t ++ ')' :: r) := rfl
    _ = '(' :: (t ++ [')']) := by rw [ht.upToClose, hclose]

/-- Brackets hide the commas between them, and make a pair. -/
lemma Balanced.bracket (ht : Balanced t ps k) :
    Balanced ('(' :: (t ++ [')'])) (('(' :: (t ++ [')'])) :: ps) 0 where
  pairs d r := by
    have hopen : (level d).pairs ('(' :: (t ++ ')' :: r)) =
        (level 0).upToClose ('(' :: (t ++ ')' :: r)) :: (level (d + 1)).pairs (t ++ ')' :: r) := rfl
    have hclose : (level (d + 1)).pairs (')' :: r) = (level d).pairs r := rfl
    rw [List.cons_append, List.append_assoc, List.singleton_append, hopen, ht.upToClose_bracket, ht.pairs,
      hclose, List.cons_append]
  upToClose d r := by
    have hopen : (level (d + 1)).upToClose ('(' :: (t ++ ')' :: r)) =
        '(' :: (level (d + 2)).upToClose (t ++ ')' :: r) := rfl
    have hclose : (level (d + 2)).upToClose (')' :: r) = ')' :: (level (d + 1)).upToClose r := rfl
    rw [List.cons_append, List.append_assoc, List.singleton_append, hopen, ht.upToClose, hclose]
    simp
  commas r := by
    have hopen : (level 1).commas ('(' :: (t ++ ')' :: r)) = 0 + (level 2).commas (t ++ ')' :: r) := rfl
    have hclose : (level 2).commas (')' :: r) = 0 + (level 1).commas r := rfl
    rw [List.cons_append, List.append_assoc, List.singleton_append, hopen, ht.commas_deeper, hclose]
    omega
  commas_deeper d r := by
    have hopen : (level (d + 2)).commas ('(' :: (t ++ ')' :: r)) =
        0 + (level (d + 3)).commas (t ++ ')' :: r) := rfl
    have hclose : (level (d + 3)).commas (')' :: r) = 0 + (level (d + 2)).commas r := rfl
    rw [List.cons_append, List.append_assoc, List.singleton_append, hopen, ht.commas_deeper (d + 1), hclose]
    omega

/-- From outside, the commas that count are those between the outermost brackets. -/
lemma Balanced.commas_bracket (ht : Balanced t ps k) (r : List Char) :
    (level 0).commas ('(' :: (t ++ ')' :: r)) = k + (level 0).commas r := by
  have hopen : (level 0).commas ('(' :: (t ++ ')' :: r)) = 0 + (level 1).commas (t ++ ')' :: r) := rfl
  have hclose : (level 1).commas (')' :: r) = 0 + (level 0).commas r := rfl
  rw [hopen, ht.commas, hclose]
  omega

end Nesting

/-! ## The counting law -/

open Nesting

/-- A bracketed part of a text and the values that are read from it: none if there is only white space
between the brackets, and otherwise one more than there are commas at their own level. -/
def Counted (part : List Char) (vs : List Value) : Prop :=
  ∃ inner, part = '(' :: (inner ++ [')']) ∧ parameterList part = .ok (vs, []) ∧
    vs.length = if inner.all isBlank then 0 else 1 + (level 0).commas part

/-- The bracketed parts of a statement are the lists of its parameters, each counted by its own commas;
the parameters themselves are counted by the commas at depth one of the statement. -/
structure CountedBy (params : List Value) (t : List Char) : Prop where
  each : List.Forall₂ Counted ((level 0).pairs t) (params :: Value.listsOf params)
  outermost : ∃ inner others, (level 0).pairs t = ('(' :: (inner ++ [')'])) :: others ∧
    params.length = if inner.all isBlank then 0 else 1 + (level 0).commas t

/-- The text between the brackets of a list, which has `k` commas of its own and the bracketed parts `ps`. -/
structure ListParts (vs : List Value) (t inner : List Char) (ps : List (List Char)) (k : Nat) : Prop where
  text : t = '(' :: (inner ++ [')'])
  balanced : Balanced inner ps k
  counted : List.Forall₂ Counted ps (Value.listsOf vs)
  length : vs.length = if inner.all isBlank then 0 else 1 + k

section

variable {vs : List Value} {t inner : List Char} {ps : List (List Char)} {k : Nat}

/-- A list is one pair of brackets, with those inside it. -/
lemma ListParts.balanced_self (hparts : ListParts vs t inner ps k) : Balanced t (t :: ps) 0 := by
  rw [hparts.text]
  exact hparts.balanced.bracket

/-- The commas of a list at depth one are its own. -/
lemma ListParts.commas (hparts : ListParts vs t inner ps k) (r : List Char) :
    (level 0).commas (t ++ r) = k + (level 0).commas r := by
  rw [hparts.text, List.cons_append, List.append_assoc, List.singleton_append]
  exact hparts.balanced.commas_bracket r

/-- A list is counted by its own commas. -/
lemma ListParts.counted_self (hparts : ListParts vs t inner ps k) (ht : ListText vs t) : Counted t vs := by
  have hread := ht.read []
  have hcommas := hparts.commas []
  rw [List.append_nil] at hread hcommas
  refine ⟨inner, hparts.text, hread, ?_⟩
  rw [hparts.length, hcommas]
  rfl

end

/-- The text of a value is not blank. -/
lemma ValueText.all_isBlank {v : Value} {t : List Char} (ht : ValueText v t) :
    t.all isBlank = false := by
  have hvisible : ∀ {s b b' : List Char}, Visible s → (b ++ (s ++ b')).all isBlank = false := by
    rintro s b b' ⟨c, s, rfl, hc⟩
    simp [hc]
  cases ht with
  | simple ht hb hb' => exact hvisible ht.visible
  | list ht hb hb' => exact hvisible ht.visible
  | typed hn ht hb hb' => exact hvisible hn.visible

mutual
/-- One value has no comma of its own, since those of a list in it are deeper. -/
theorem ValueText.balanced {v : Value} {t : List Char} (ht : ValueText v t) :
    ∃ ps, Balanced t ps 0 ∧ List.Forall₂ Counted ps v.lists :=
  match ht with
  | @ValueText.simple v t b b' ht hb hb' => by
    have huncounted : ∀ d, Uncounted (level d) (level d) (b ++ (t ++ b')) := fun d =>
      (uncounted_blanks hb).append ((uncounted_simple ht).append (uncounted_blanks hb'))
    refine ⟨[], .of_uncounted huncounted, ?_⟩
    cases ht with
    | real | integer | ref | text | binary | enum | omitted | derived => exact .nil
  | @ValueText.list vs t b b' ht hb hb' => by
    obtain ⟨inner, ps, k, hparts⟩ := ht.parts
    refine ⟨_, (balanced_blanks hb).append (hparts.balanced_self.append (balanced_blanks hb')), ?_⟩
    rw [List.nil_append, List.append_nil, Value.lists]
    exact .cons (hparts.counted_self ht) hparts.counted
  | @ValueText.typed name vs t b b' hn ht hb hb' => by
    obtain ⟨inner, ps, k, hparts⟩ := ht.parts
    have hname : Balanced name [] 0 := .of_uncounted fun d =>
      uncounted_of_isInner fun c hc => isInner_of_isKeywordChar (hn.isKeywordChar c hc)
    have hafter := hparts.balanced_self.append (balanced_blanks hb')
    refine ⟨_, (balanced_blanks hb).append (hname.append hafter), ?_⟩
    rw [List.nil_append, List.nil_append, List.append_nil, Value.lists]
    exact .cons (hparts.counted_self ht) hparts.counted

/-- Every list has its parts. The induction is on the text, together with values and items. -/
theorem ListText.parts {vs : List Value} {t : List Char} (ht : ListText vs t) :
    ∃ inner ps k, ListParts vs t inner ps k :=
  match ht with
  | @ListText.nil b hb => by
    have hblank : b.all isBlank = true := List.all_eq_true.mpr hb
    have hlength : ([] : List Value).length = if b.all isBlank then 0 else 1 + 0 := by
      rw [hblank]
      rfl
    exact ⟨b, [], 0, rfl, balanced_blanks hb, .nil, hlength⟩
  | @ListText.items vs t ht => by
    obtain ⟨ps, k, hbalanced, hcounted, hlength, hvisible⟩ := ht.balanced
    have hlength : vs.length = if t.all isBlank then 0 else 1 + k := by
      rw [hvisible]
      exact hlength
    exact ⟨t, ps, k, rfl, hbalanced, hcounted, hlength⟩

/-- Between values there is one comma each. -/
theorem ItemsText.balanced {vs : List Value} {t : List Char} (ht : ItemsText vs t) :
    ∃ ps k, Balanced t ps k ∧ List.Forall₂ Counted ps (Value.listsOf vs) ∧ vs.length = 1 + k ∧
      t.all isBlank = false :=
  match ht with
  | @ItemsText.last v t ht => by
    obtain ⟨ps, hbalanced, hcounted⟩ := ht.balanced
    refine ⟨ps, 0, hbalanced, ?_, rfl, ht.all_isBlank⟩
    rw [Value.listsOf, Value.listsOf, List.append_nil]
    exact hcounted
  | @ItemsText.more v t vs t' ht ht' => by
    obtain ⟨ps, hbalanced, hcounted⟩ := ht.balanced
    obtain ⟨ps', k, hbalanced', hcounted', hlength, -⟩ := ht'.balanced
    refine ⟨ps ++ ps', k + 1, ?_, ?_, ?_, ?_⟩
    · have hmore := hbalanced.append (Balanced.comma.append hbalanced')
      rw [List.nil_append, Nat.zero_add, Nat.add_comm] at hmore
      exact hmore
    · rw [Value.listsOf]
      exact List.rel_append hcounted hcounted'
    · rw [List.length_cons, hlength]
      omega
    · rw [List.all_append, ht.all_isBlank, Bool.false_and]
end

/-! ## Statements -/

/-- Around the outermost brackets of a statement nothing counts. -/
lemma ListText.countedBy {vs : List Value} {before list after : List Char} (ht : ListText vs list)
    (hbefore : ∀ c ∈ before, isInner c = true) (hafter : ∀ c ∈ after, isInner c = true) :
    CountedBy vs (before ++ (list ++ after)) := by
  obtain ⟨inner, ps, k, hparts⟩ := ht.parts
  have hfront := uncounted_of_isInner (d := 0) hbefore
  have hend := uncounted_of_isInner (d := 0) hafter
  have hpairs : (level 0).pairs (before ++ (list ++ after)) = list :: ps := by
    have hnone := hend.pairs []
    rw [List.append_nil] at hnone
    rw [hfront.pairs, hparts.balanced_self.pairs, hnone]
    exact List.append_nil _
  have hcommas : (level 0).commas (before ++ (list ++ after)) = k := by
    have hnone := hend.commas []
    rw [List.append_nil] at hnone
    rw [hfront.commas, hparts.commas, hnone]
    rfl
  constructor
  · rw [hpairs]
    exact .cons (hparts.counted_self ht) hparts.counted
  · refine ⟨inner, ps, ?_, ?_⟩
    · rw [hpairs, hparts.text]
    · rw [hcommas]
      exact hparts.length

/-- The lists of an instance are counted by their commas. -/
lemma InstanceText.countedBy {raw : RawInstance} {t : List Char} (ht : InstanceText raw t) :
    CountedBy raw.params t := by
  cases ht with
  | @intro id name vs list b b₁ b₂ b₃ b₄ b₅ ds value ne_nil isKey ht hb hb₁ hb₂ hb₃ hb₄ hb₅ =>
    have hblanks : ∀ {b}, Blanks b → ∀ c ∈ b, isInner c = true := fun hb c hc => isInner_of_isBlank (hb c hc)
    have hname : ∀ c ∈ name, isInner c = true := fun c hc => isInner_of_isKeywordChar (isKey c hc)
    have hbefore : ∀ c ∈ b ++ '#' :: (ds.chars ++ (b₁ ++ '=' :: (b₂ ++ (name ++ b₃)))), isInner c = true := by
      simp only [List.forall_mem_append, List.forall_mem_cons]
      exact ⟨hblanks hb, rfl, isInner_digits ds, hblanks hb₁, rfl, hblanks hb₂, hname, hblanks hb₃⟩
    have hafter : ∀ c ∈ b₄ ++ ';' :: b₅, isInner c = true := by
      simp only [List.forall_mem_append, List.forall_mem_cons]
      exact ⟨hblanks hb₄, rfl, hblanks hb₅⟩
    have hcounted := ht.countedBy hbefore hafter
    simpa only [List.append_assoc, List.cons_append] using hcounted

/-- What is read as a record is a word, a list and a semicolon, with white space around them. -/
lemma recordOf_sound {t : List Char} {record : HeaderRecord} (h : recordOf t = .ok record) :
    ∃ name list, (∀ c ∈ name, isKeywordChar c = true) ∧ ListText record.params list ∧
      ∃ b b₁ b₂ b₃, Blanks b ∧ Blanks b₁ ∧ Blanks b₂ ∧ Blanks b₃ ∧
        t = b ++ (name ++ (b₁ ++ (list ++ (b₂ ++ ';' :: b₃)))) := by
  rw [recordOf] at h
  obtain ⟨⟨name, s₁⟩, hname, h⟩ := bind_eq_ok_iff.mp h
  obtain ⟨⟨vs, s₂⟩, hlist, h⟩ := bind_eq_ok_iff.mp h
  obtain ⟨⟨⟩, hend, h⟩ := bind_eq_ok_iff.mp h
  cases h
  obtain ⟨⟨-, hkey⟩, b, b₁, hb, hb₁, ht⟩ := keyword_sound hname
  obtain ⟨list, htext, hs₁⟩ := parameterList_sound hlist
  obtain ⟨b₂, b₃, hb₂, hb₃, hs₂⟩ := statementEnd_sound hend
  rw [hs₁, hs₂] at ht
  exact ⟨name, list, hkey, htext, b, b₁, b₂, b₃, hb, hb₁, hb₂, hb₃, ht⟩

/-- So are those of a record. -/
lemma recordOf_countedBy {t : List Char} {record : HeaderRecord} (h : recordOf t = .ok record) :
    CountedBy record.params t := by
  obtain ⟨name, list, hkey, ht, b, b₁, b₂, b₃, hb, hb₁, hb₂, hb₃, rfl⟩ := recordOf_sound h
  have hblanks : ∀ {b}, Blanks b → ∀ c ∈ b, isInner c = true := fun hb c hc => isInner_of_isBlank (hb c hc)
  have hname : ∀ c ∈ name, isInner c = true := fun c hc => isInner_of_isKeywordChar (hkey c hc)
  have hbefore : ∀ c ∈ b ++ (name ++ b₁), isInner c = true := by
    simp only [List.forall_mem_append]
    exact ⟨hblanks hb, hname, hblanks hb₁⟩
  have hafter : ∀ c ∈ b₂ ++ ';' :: b₃, isInner c = true := by
    simp only [List.forall_mem_append, List.forall_mem_cons]
    exact ⟨hblanks hb₂, rfl, hblanks hb₃⟩
  have hcounted := ht.countedBy hbefore hafter
  simpa only [List.append_assoc] using hcounted

/-- Whether a record is read does not depend on its place in the file. -/
lemma recordParse_eq_ok_iff {t : List Char} {offset : Nat} {record : HeaderRecord} :
    HeaderRecord.parse t offset = .ok record ↔ recordOf t = .ok record := by
  rw [HeaderRecord.parse, complete]
  cases recordOf t with
  | ok _ => simp [Except.mapError]
  | error _ => simp [Except.mapError]

/-- No parameter is ever split: in every statement that is read, the bracketed parts of the text are the
lists among the parameters, and each list has as many values as its own commas tell. -/
theorem params_countedBy (t : List Char) (offset : Nat) :
    (∀ raw, RawInstance.parse t offset = .ok raw → CountedBy raw.params t) ∧
      (∀ record, HeaderRecord.parse t offset = .ok record → CountedBy record.params t) := by
  constructor
  · intro raw hraw
    exact (parse_eq_ok_iff.mp hraw).countedBy
  · intro record hrecord
    exact recordOf_countedBy (recordParse_eq_ok_iff.mp hrecord)

/-- `F((1,'),('' '),T("),("),( ),.A.);`, with brackets and commas in both kinds of literals. -/
def nestedRecord : List Char :=
  ['F', '(', '(', '1', ',', '\'', ')', ',', '(', '\'', '\'', ' ', '\'', ')', ',', 'T', '(', '"', ')', ',', '(', '"',
    ')', ',', '(', ' ', ')', ',', '.', 'A', '.', ')', ';']

def nestedInstance : List Char := '#' :: '7' :: '=' :: nestedRecord

/-- The parameters that both texts have. -/
def nestedParams : List Value :=
  [.list [.integer 1, .text "),(' "], .typed "T" [.text "),("], .list [], .enum "A"]

/-- The instance and the record are counted, with brackets and commas in their literals. -/
theorem params_countedBy_nested :
    (RawInstance.parse nestedInstance 0 = .ok ⟨7, "F", nestedParams⟩ ∧ CountedBy nestedParams nestedInstance) ∧
      (HeaderRecord.parse nestedRecord 0 = .ok ⟨"F", nestedParams⟩ ∧ CountedBy nestedParams nestedRecord) := by
  have hinstance : RawInstance.parse nestedInstance 0 = .ok ⟨7, "F", nestedParams⟩ := by cbv
  have hrecord : HeaderRecord.parse nestedRecord 0 = .ok ⟨"F", nestedParams⟩ := by cbv
  exact ⟨⟨hinstance, (params_countedBy nestedInstance 0).1 _ hinstance⟩,
    ⟨hrecord, (params_countedBy nestedRecord 0).2 _ hrecord⟩⟩

end BuildingModel.Exchange
