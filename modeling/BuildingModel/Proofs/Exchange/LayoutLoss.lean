import BuildingModel.Proofs.Exchange.BrokenLine
import BuildingModel.Proofs.Exchange.Layout

/-!
# Layouts that are not read

Following a text character by character with a few places is enough to see two things that no text of an
instance has: a slash outside of literals, and a bracket among the parameters after a word and white space.
So a layout with a comment, or with a gap after the name of a typed value, is no text of any instance.
It is still cut off whole, and costs one problem with its number and nothing else.
-/

namespace BuildingModel.Exchange

open Text

/-! ## Following a text -/

/-- What stands before a place in the text of an instance. -/
inductive Place where
  /-- No bracket so far. -/
  | head
  | clear
  | word
  /-- A word and white space. -/
  | spaced
  | text
  | binary
  /-- Something that no text of an instance has. -/
  | stuck
deriving DecidableEq

/-- The next place, outside of literals and after the first bracket. -/
def Place.nextParam (p : Place) (c : Char) : Place :=
  if c = '/' then .stuck
  else if c = '\'' then .text
  else if c = '"' then .binary
  else if c = '(' then if p = .spaced then .stuck else .clear
  else if isKeywordChar c then .word
  else if isBlank c && p != .clear then .spaced
  else .clear

/-- The place after one more character. -/
def Place.next (p : Place) (c : Char) : Place :=
  match p with
  | .head => if c = '(' then .clear else if c = '/' then .stuck else .head
  | .clear | .word | .spaced => p.nextParam c
  | .text => if c = '\'' then .clear else .text
  | .binary => if c = '"' then .clear else .binary
  | .stuck => .stuck

/-- The place after a text. -/
def Place.follow (p : Place) (t : List Char) : Place := t.foldl Place.next p

namespace Place

variable {p : Place} {c : Char}

/-- Texts are followed one after the other. -/
lemma follow_append (p : Place) (s t : List Char) : p.follow (s ++ t) = (p.follow s).follow t :=
  List.foldl_append

/-- A text is followed character by character. -/
lemma follow_cons (p : Place) (c : Char) (t : List Char) : p.follow (c :: t) = (p.next c).follow t := rfl

/-- There is no way on from a place where reading is stuck. -/
lemma follow_stuck (t : List Char) : stuck.follow t = stuck := by
  induction t with
  | nil => rfl
  | cons c t ih => exact ih

/-- Among the parameters, outside of literals. -/
inductive Inside : Place → Prop where
  | clear : Inside .clear
  | word : Inside .word
  | spaced : Inside .spaced

/-- Among the parameters all places go on by the same rule. -/
lemma Inside.next_eq (hp : p.Inside) (c : Char) : p.next c = p.nextParam c := by
  cases hp with
  | clear | word | spaced => rfl

/-- The characters that neither open a literal or a bracket nor are a slash. -/
def isCalm (c : Char) : Bool := c != '/' && c != '\'' && c != '"' && c != '('

/-- The characters of keywords are calm. -/
lemma isCalm_of_isKeywordChar (hc : isKeywordChar c = true) : isCalm c = true := by
  rw [isKeywordChar_iff] at hc
  simp only [isCalm, Bool.and_eq_true, bne_iff_ne, ne_eq, ← Char.toNat_inj, Char.reduceToNat]
  omega

lemma isCalm_of_isBlank (hc : isBlank c = true) : isCalm c = true := by
  simp only [isCalm, Bool.and_eq_true, bne_iff_ne]
  exact ⟨⟨⟨ne_of_isBlank hc rfl, ne_of_isBlank hc rfl⟩, ne_of_isBlank hc rfl⟩, ne_of_isBlank hc rfl⟩

/-- A calm character stays among the parameters, and only words and blanks after them are remembered. -/
lemma Inside.next_of_isCalm (hp : p.Inside) (hc : isCalm c = true) :
    p.next c = if isKeywordChar c then .word else if isBlank c && p != .clear then .spaced else .clear := by
  simp only [isCalm, Bool.and_eq_true, bne_iff_ne] at hc
  obtain ⟨⟨⟨hslash, htext⟩, hbinary⟩, hbracket⟩ := hc
  rw [hp.next_eq, nextParam, if_neg hslash, if_neg htext, if_neg hbinary, if_neg hbracket]

/-- The text leads from places among the parameters to such places. -/
def Calm (t : List Char) : Prop := ∀ p : Place, p.Inside → (p.follow t).Inside

/-- A calm character is a calm text. -/
lemma calm_singleton (hc : isCalm c = true) : Calm [c] := by
  intro p hp
  rw [follow_cons, hp.next_of_isCalm hc]
  split
  · exact .word
  · split
    · exact .spaced
    · exact .clear

/-- Calm texts follow each other. -/
lemma Calm.append {s t : List Char} (hs : Calm s) (ht : Calm t) : Calm (s ++ t) := by
  intro p hp
  rw [follow_append]
  exact ht _ (hs p hp)

/-- A text of calm characters is calm. -/
lemma calm_of_isCalm {t : List Char} (ht : ∀ c ∈ t, isCalm c = true) : Calm t := by
  induction t with
  | nil => exact fun p hp => hp
  | cons c t ih =>
    obtain ⟨hc, ht⟩ := List.forall_mem_cons.mp ht
    exact (calm_singleton hc).append (ih ht)

/-- Blanks are a calm text. -/
lemma calm_blanks {b : List Char} (hb : Blanks b) : Calm b :=
  calm_of_isCalm fun c hc => isCalm_of_isBlank (hb c hc)

/-- A blank is remembered unless all is clear before it. -/
lemma Inside.next_blank (hp : p.Inside) (hc : isBlank c = true) :
    p.next c = if p = .clear then .clear else .spaced := by
  have hkey := isKeywordChar_of_isDelimiter (by rw [isDelimiter, hc]; rfl)
  rw [hp.next_of_isCalm (isCalm_of_isBlank hc), hkey, hc, if_neg (by decide)]
  cases hp with
  | clear | word | spaced => rfl

/-- Blanks stay clear. -/
lemma follow_clear_blanks {b : List Char} (hb : Blanks b) : clear.follow b = clear := by
  induction b with
  | nil => rfl
  | cons c b ih =>
    obtain ⟨hc, hb⟩ := List.forall_mem_cons.mp hb
    rw [follow_cons, Inside.clear.next_blank hc, if_pos rfl, ih hb]

/-- White space after a word does not go unnoticed. -/
lemma follow_word_blanks {b : List Char} (hne : b ≠ []) (hb : Blanks b) : word.follow b = spaced := by
  have hspaced : ∀ b, Blanks b → spaced.follow b = spaced := by
    intro b hb
    induction b with
    | nil => rfl
    | cons c b ih =>
      obtain ⟨hc, hb⟩ := List.forall_mem_cons.mp hb
      rw [follow_cons, Inside.spaced.next_blank hc, if_neg (by decide), ih hb]
  obtain ⟨c, b, rfl⟩ := List.exists_cons_of_ne_nil hne
  obtain ⟨hc, hb⟩ := List.forall_mem_cons.mp hb
  rw [follow_cons, Inside.word.next_blank hc, if_neg (by decide), hspaced b hb]

/-- A word is remembered to its end. -/
lemma Inside.follow_word (hp : p.Inside) {w : List Char} (hne : w ≠ [])
    (hw : ∀ c ∈ w, isKeywordChar c = true) : p.follow w = .word := by
  have hnext : ∀ {q : Place} {c : Char}, q.Inside → isKeywordChar c = true → q.next c = .word := by
    intro q c hq hc
    rw [hq.next_of_isCalm (isCalm_of_isKeywordChar hc), if_pos hc]
  induction w generalizing p with
  | nil => exact absurd rfl hne
  | cons c w ih =>
    obtain ⟨hc, hw⟩ := List.forall_mem_cons.mp hw
    rw [follow_cons, hnext hp hc]
    cases w with
    | nil => rfl
    | cons d w => exact ih .word (List.cons_ne_nil _ _) hw

/-! ## Texts of instances are never stuck -/

/-- A literal is left at its last quote: a quote that is doubled leaves it and enters it again. -/
lemma follow_doubled (p : Place) (q : Char) (hclose : p.next q = .clear) (hreopen : clear.next q = p)
    (hother : ∀ c, c ≠ q → p.next c = p) (s : List Char) : p.follow (doubled q s ++ [q]) = .clear := by
  induction s with
  | nil => exact hclose
  | cons c s ih =>
    by_cases hc : c = q
    · rw [hc, doubled_cons_self, List.cons_append, List.cons_append, follow_cons, follow_cons, hclose, hreopen]
      exact ih
    · rw [doubled_cons_of_ne hc, List.cons_append, follow_cons, hother c hc]
      exact ih

lemma calm_text (s : List Char) : Calm ('\'' :: (doubled '\'' s ++ ['\''])) := by
  intro p hp
  have hliteral := follow_doubled .text '\'' rfl rfl (fun c hc => if_neg hc) s
  rw [follow_cons, hp.next_eq, nextParam, if_neg (by decide), if_pos rfl, hliteral]
  exact .clear

lemma calm_binary (s : List Char) : Calm ('"' :: (doubled '"' s ++ ['"'])) := by
  intro p hp
  have hliteral := follow_doubled .binary '"' rfl rfl (fun c hc => if_neg hc) s
  rw [follow_cons, hp.next_eq, nextParam, if_neg (by decide), if_neg (by decide), if_pos rfl, hliteral]
  exact .clear

/-- All characters of numbers are calm. -/
lemma isCalm_of_cases (hc : isKeywordChar c = true ∨ c = '.' ∨ c = '+') : isCalm c = true := by
  rcases hc with hc | rfl | rfl
  · exact isCalm_of_isKeywordChar hc
  · rfl
  · rfl

lemma isCalm_digits (ds : Digits) : ∀ c ∈ ds.chars, isCalm c = true :=
  fun c hc => isCalm_of_isKeywordChar (isKeywordChar_of_isDigit (ds.isDigit c hc))

/-- The text of every simple value is calm. -/
lemma calm_simple {v : Value} {t : List Char} (ht : SimpleText v t) : Calm t := by
  cases ht with
  | real t => exact calm_of_isCalm fun c hc => isCalm_of_cases (t.chars_cases c hc)
  | integer sign ds value =>
    have hsign := calm_of_isCalm fun c hc => isCalm_of_cases (sign.chars_cases c hc)
    exact hsign.append (calm_of_isCalm (isCalm_digits ds))
  | ref ds value => exact calm_of_isCalm (List.forall_mem_cons.mpr ⟨rfl, isCalm_digits ds⟩)
  | text s => exact calm_text s
  | binary s => exact calm_binary s
  | @enum w ne_nil isName =>
    have hw := calm_of_isCalm fun c hc =>
      isCalm_of_isKeywordChar (isKeywordChar_of_isNameChar (isName c hc))
    exact (calm_singleton rfl).append (hw.append (calm_singleton rfl))
  | omitted => exact calm_singleton rfl
  | derived => exact calm_singleton rfl

/-- A comma or a bracket clears the place. -/
lemma Inside.next_closed (hp : p.Inside) (hc : c = ',' ∨ c = ')') : p.next c = .clear := by
  rcases hc with rfl | rfl
  · rw [hp.next_of_isCalm rfl]
    rfl
  · rw [hp.next_of_isCalm rfl]
    rfl

end Place

open Place

mutual
/-- The text of a value leads from a clear place to a place among the parameters. -/
theorem ValueText.follow {v : Value} {t : List Char} (ht : ValueText v t) : (clear.follow t).Inside :=
  match ht with
  | .simple ht hb hb' =>
    (calm_blanks hb).append ((calm_simple ht).append (calm_blanks hb')) _ .clear
  | .list ht hb hb' => by
    rw [follow_append, follow_append, follow_clear_blanks hb, ht.follow rfl]
    exact calm_blanks hb' _ .clear
  | .typed hn ht hb hb' => by
    rw [follow_append, follow_append, follow_append, follow_clear_blanks hb,
      Inside.clear.follow_word hn.ne_nil hn.isKeywordChar, ht.follow rfl]
    exact calm_blanks hb' _ .clear

/-- A list is followed from where a bracket may stand. -/
theorem ListText.follow {vs : List Value} {t : List Char} (ht : ListText vs t) {p : Place}
    (hp : p.next '(' = .clear) : p.follow t = .clear :=
  match ht with
  | .nil hb => by
    rw [follow_cons, hp, follow_append, follow_clear_blanks hb]
    rfl
  | .items ht => by
    rw [follow_cons, hp, follow_append]
    exact ht.follow.next_closed (.inr rfl)

/-- So does the text of items. -/
theorem ItemsText.follow {vs : List Value} {t : List Char} (ht : ItemsText vs t) : (clear.follow t).Inside :=
  match ht with
  | .last ht => ht.follow
  | .more ht ht' => by
    rw [follow_append, follow_cons, ht.follow.next_closed (.inl rfl)]
    exact ht'.follow
end

/-- Before the first bracket only a slash is out of place. -/
lemma follow_head {t : List Char} (ht : ∀ c ∈ t, isCalm c = true) : head.follow t = head := by
  induction t with
  | nil => rfl
  | cons c t ih =>
    obtain ⟨hc, ht⟩ := List.forall_mem_cons.mp ht
    simp only [isCalm, Bool.and_eq_true, bne_iff_ne] at hc
    rw [follow_cons, next, if_neg hc.2, if_neg hc.1.1.1, ih ht]

/-- A text of an instance is never stuck. -/
theorem InstanceText.follow_ne_stuck {raw : RawInstance} {t : List Char} (ht : InstanceText raw t) :
    head.follow t ≠ stuck := by
  cases ht with
  | @intro id name vs list b b₁ b₂ b₃ b₄ b₅ ds value ne_nil isKey ht hb hb₁ hb₂ hb₃ hb₄ hb₅ =>
    have hblanks : ∀ {b}, Blanks b → ∀ c ∈ b, isCalm c = true := fun hb c hc => isCalm_of_isBlank (hb c hc)
    have hname : ∀ c ∈ name, isCalm c = true := fun c hc => isCalm_of_isKeywordChar (isKey c hc)
    have hhead : ∀ c ∈ b ++ '#' :: (ds.chars ++ (b₁ ++ '=' :: (b₂ ++ (name ++ b₃)))), isCalm c = true := by
      simp only [List.forall_mem_append, List.forall_mem_cons]
      exact ⟨hblanks hb, rfl, isCalm_digits ds, hblanks hb₁, rfl, hblanks hb₂, hname, hblanks hb₃⟩
    have hend : Calm (b₄ ++ ([';'] ++ b₅)) := (calm_blanks hb₄).append ((calm_singleton rfl).append (calm_blanks hb₅))
    have htext : b ++ '#' :: (ds.chars ++ (b₁ ++ '=' :: (b₂ ++ (name ++ (b₃ ++ (list ++ (b₄ ++ ';' :: b₅))))))) =
        (b ++ '#' :: (ds.chars ++ (b₁ ++ '=' :: (b₂ ++ (name ++ b₃))))) ++ (list ++ (b₄ ++ ([';'] ++ b₅))) := by
      simp
    rw [htext, follow_append, follow_head hhead, follow_append, ht.follow rfl]
    intro hstuck
    have hinside := hend _ .clear
    rw [hstuck] at hinside
    cases hinside

/-! ## Harmful layouts are stuck -/

/-- A comment is stuck wherever it stands. -/
lemma Gap.follow_eq_stuck {g : List Char} (hg : Gap g) (hcomment : g.all isBlank = false) {p : Place}
    (hp : p.Inside ∨ p = .head) : p.follow g = .stuck := by
  induction hg generalizing p with
  | nil => cases hcomment
  | @blank c g hc hg ih =>
    rw [List.all_cons, hc, Bool.true_and] at hcomment
    rw [follow_cons]
    apply ih hcomment
    rcases hp with hp | rfl
    · exact .inl (calm_singleton (isCalm_of_isBlank hc) p hp)
    · exact .inr (follow_head (t := [c]) (List.forall_mem_singleton.mpr (isCalm_of_isBlank hc)))
  | comment hbody hg ih =>
    have hslash : p.next '/' = .stuck := by
      rcases hp with hp | rfl
      · rw [hp.next_eq]
        rfl
      · rfl
    rw [follow_cons, hslash, follow_stuck]

/-- Following the pieces from among the parameters ends stuck. -/
def Stuck (ps : List Piece) : Prop := ∀ p : Place, p.Inside → p.follow (piecesText ps) = .stuck

/-- A piece whose token is followed through is stuck at its gap, or at a later piece. -/
lemma stuck_cons {w g : List Char} {ps : List Piece}
    (hw : ∀ p : Place, p.Inside → (p.follow w).Inside ∨ p.follow w = .stuck) (hg : Gap g)
    (hps : ps.all Piece.harmless = false → Stuck ps)
    (hharm : List.all (⟨.word w, g⟩ :: ps) Piece.harmless = false) : Stuck (⟨.word w, g⟩ :: ps) := by
  intro p hp
  rw [piecesText_cons, follow_append, follow_append]
  rcases hw p hp with hinside | hstuck
  · by_cases hblank : g.all isBlank = true
    · rw [List.all_cons, Bool.and_eq_false_iff] at hharm
      rcases hharm with hpiece | hrest
      · rw [Piece.harmless, hblank] at hpiece
        cases hpiece
      · exact hps hrest _ (calm_blanks (List.all_eq_true.mp hblank) _ hinside)
    · rw [Bool.not_eq_true] at hblank
      rw [Token.chars, hg.follow_eq_stuck hblank (.inl hinside), follow_stuck]
  · rw [Token.chars, hstuck, follow_stuck, follow_stuck]

/-- Pieces in order are stuck if one of them does harm. -/
lemma Orderly.stuck {ps : List Piece} (hps : Orderly ps) (hharm : ps.all Piece.harmless = false) :
    Stuck ps := by
  induction hps with
  | nil => cases hharm
  | @mark c g ps hc hg h ih =>
    refine stuck_cons ?_ hg ih hharm
    intro p hp
    rcases hc with rfl | hc
    · cases hp with
      | clear | word => exact .inl .clear
      | spaced => exact .inr rfl
    · rw [follow_cons, hp.next_closed hc.symm]
      exact .inl .clear
  | simple ht hw hg hclosed h ih => exact stuck_cons (fun p hp => .inl (calm_simple ht p hp)) hg ih hharm
  | @typeName name g ps hn hg hopen h ih =>
    intro p hp
    rw [piecesText_cons, follow_append, follow_append, Token.chars, hp.follow_word hn.ne_nil hn.isKeywordChar]
    by_cases hblank : g.all isBlank = true
    · by_cases hne : g = []
      · rw [hne] at hharm ⊢
        exact ih hharm _ .word
      · -- the bracket after the name and the gap
        obtain ⟨s, hs⟩ := hopen
        rw [follow_word_blanks hne (List.all_eq_true.mp hblank), hs]
        exact follow_stuck s
    · rw [Bool.not_eq_true] at hblank
      rw [hg.follow_eq_stuck hblank (.inl .word), follow_stuck]

/-- Before the first bracket there may be white space after a token, but no comment. -/
lemma follow_head_piece {w g : List Char} (hw : ∀ c ∈ w, isCalm c = true) (hg : Gap g) (r : List Char) :
    head.follow (w ++ (g ++ r)) = if g.all isBlank then head.follow r else .stuck := by
  rw [follow_append, follow_head hw, follow_append]
  split
  · rename_i hblank
    rw [follow_head fun c hc => isCalm_of_isBlank (List.all_eq_true.mp hblank c hc)]
  · rename_i hcomment
    rw [hg.follow_eq_stuck (Bool.not_eq_true _ ▸ hcomment) (.inr rfl), follow_stuck]

end BuildingModel.Exchange

namespace BuildingModel

open Exchange Text Place

namespace Layout

variable {showReal : Float → List Char}

/-- A layout that is not harmless is no text of any instance. -/
theorem not_instanceText (l : Layout showReal) (hraw : l.raw.Writable showReal) (hl : l.harmless = false)
    (raw : RawInstance) : ¬ InstanceText raw (l.text ++ [';']) := by
  intro ht
  apply ht.follow_ne_stuck
  obtain ⟨g₁, g₂, g₃, ps, hparts⟩ := l.exists_parts hraw
  have hid : ∀ c ∈ '#' :: Nat.toDigits 10 l.raw.id.toNat, isCalm c = true :=
    List.forall_mem_cons.mpr ⟨rfl, isCalm_digits (.ofNat l.raw.id.toNat)⟩
  have hname : ∀ c ∈ l.raw.typeName.toList, isCalm c = true :=
    fun c hc => isCalm_of_isKeywordChar (hraw.typeName.isKeywordChar c hc)
  -- the bracket leads to the parameters from both places
  have hopen : head.follow (piecesText ps) = clear.follow (piecesText ps) := by
    obtain ⟨s, hs⟩ := hparts.opens
    rw [hs]
    rfl
  rw [harmless, hparts.pieces_eq] at hl
  simp only [List.all_cons, Piece.harmless] at hl
  rw [follow_append, text, hparts.pieces_eq, piecesText_cons, piecesText_cons, piecesText_cons,
    Token.chars, Token.chars, Token.chars, follow_head_piece hid hparts.gap₁,
    follow_head_piece (List.forall_mem_singleton.mpr rfl) hparts.gap₂, follow_head_piece hname hparts.gap₃, hopen]
  split
  · rename_i h₁
    split
    · rename_i h₂
      split
      · rename_i h₃
        rw [h₁, h₂, h₃] at hl
        rw [hparts.orderly.stuck hl _ .clear]
        rfl
      · rfl
    · rfl
  · rfl

/-- A layout begins with the number of its instance. -/
lemma leadingId_text (l : Layout showReal) (hraw : l.raw.Writable showReal) (r : List Char) :
    leadingId (l.text ++ r) = some l.raw.id := by
  obtain ⟨g₁, g₂, g₃, ps, hparts⟩ := l.exists_parts hraw
  rw [text, hparts.pieces_eq, piecesText_cons, piecesText_cons, List.append_assoc, List.append_assoc]
  refine leadingId_append (.ofNat l.raw.id.toNat) (Digits.digitsValue_ofNat _) ?_
  exact hparts.gap₁.stops_isDigit (stops_cons.mpr rfl)

/-- A layout begins with a hash sign. -/
lemma exists_hash (l : Layout showReal) : ∃ t, l.text = '#' :: t := by
  obtain ⟨g₁, g₂, g₃, ps, hpieces, -⟩ := l.pieces_eq
  rw [text, hpieces]
  exact ⟨_, rfl⟩

/-! ## Reading a file -/

/-- A harmless layout becomes the next entity. -/
lemma run_harmless (l : Layout showReal) (hraw : l.raw.Writable showReal) (hl : l.harmless = true)
    {p : ReadState} (hdata : p.here = some .data) (hnew : p.table.contains l.raw.id = false) (position : Nat)
    (r : List Char) :
    ∃ finish, p.run ⟨position, l.text ++ ';' :: '\n' :: r⟩ =
      ReadState.run { p with table := p.table.push l.raw.entity } ⟨finish, r⟩ := by
  have hcut := l.cut_text hraw ('\n' :: r)
  have htext := l.instanceText hraw hl
  obtain ⟨t, ht⟩ := l.exists_hash
  rw [ht] at hcut htext ⊢
  exact run_instance htext hcut hdata hnew position

/-- Any other layout becomes a problem with its number. -/
lemma run_harmful (l : Layout showReal) (hraw : l.raw.Writable showReal) (hl : l.harmless = false)
    {p : ReadState} (hdata : p.here = some .data) (position : Nat) (r : List Char) :
    ∃ finish problem, problem.kind = .entityParse ∧ problem.entity = some l.raw.id ∧
      p.run ⟨position, l.text ++ ';' :: '\n' :: r⟩ =
        ReadState.run { p with log := p.log.push problem } ⟨finish, r⟩ := by
  have hcut := l.cut_text hraw ('\n' :: r)
  have hunread := l.not_instanceText hraw hl
  have hid := l.leadingId_text hraw [';']
  obtain ⟨t, ht⟩ := l.exists_hash
  rw [ht] at hcut hunread hid ⊢
  rw [← hid]
  exact run_unread hunread hcut hdata position

end Layout

variable {showReal : Float → List Char}

/-- Layouts, each with its semicolon and the end of its line. -/
def layoutLines (ls : List (Layout showReal)) : List Char := ls.flatMap fun l => l.text ++ [';', '\n']

/-- A file without a header whose data section has the given layouts. -/
def layoutFile (ls : List (Layout showReal)) : List Char :=
  keywordLine "ISO-10303-21" (keywordLine "DATA"
    (layoutLines ls ++ keywordLine "ENDSEC" ("END-ISO-10303-21".toList ++ [';'])))

/-- Without gaps a file is as it is written. -/
lemma layoutFile_eq_writeFile {ls : List (Layout showReal)} (hls : ∀ l ∈ ls, ∀ p ∈ l.pieces, p.gap = []) :
    layoutFile ls = writeFile showReal (ls.map (·.raw)) := by
  have hlines : layoutLines ls = writeLines showReal (ls.map (·.raw)) := by
    rw [layoutLines, writeLines, List.flatMap_map]
    apply List.flatMap_congr
    intro l hl
    rw [Layout.text, piecesText_of_no_gap (hls l hl), l.tokens_eq, RawInstance.chars_tokens]
  rw [layoutFile, writeFile, hlines]

/-- One problem for each layout that is lost. -/
structure Loses (ls : List (Layout showReal)) (problems : List Problem) : Prop where
  kind : ∀ problem ∈ problems, problem.kind = .entityParse
  entity : problems.map (·.entity) = (ls.filter (!·.harmless)).map (some ·.raw.id)

/-- Lines add the entities of the harmless layouts, and a problem for each of the others. -/
lemma run_layoutLines {ls : List (Layout showReal)} (hls : ∀ l ∈ ls, l.raw.Writable showReal)
    (hids : (ls.map (·.raw.id)).Nodup) {p : ReadState} (hdata : p.here = some .data)
    (hnew : ∀ l ∈ ls, p.table.contains l.raw.id = false) (position : Nat) (r : List Char) :
    ∃ finish problems, Loses ls problems ∧
      p.run ⟨position, layoutLines ls ++ r⟩ =
        ReadState.run { p with
          table := ((ls.filter (·.harmless)).map (·.raw.entity)).foldl EntityTable.push p.table
          log := p.log.pushAll problems } ⟨finish, r⟩ := by
  induction ls generalizing p position with
  | nil => exact ⟨position, [], ⟨by simp, rfl⟩, rfl⟩
  | cons l ls ih =>
    obtain ⟨hl, hls⟩ := List.forall_mem_cons.mp hls
    obtain ⟨hfresh, hnew⟩ := List.forall_mem_cons.mp hnew
    rw [List.map_cons, List.nodup_cons] at hids
    have htext : layoutLines (l :: ls) ++ r = l.text ++ ';' :: '\n' :: (layoutLines ls ++ r) := by
      simp [layoutLines]
    rw [htext]
    cases hharmless : l.harmless with
    | true =>
      have hnew' : ∀ k ∈ ls, (p.table.push l.raw.entity).contains k.raw.id = false := by
        intro k hk
        have hne : l.raw.id ≠ k.raw.id := fun h => hids.1 (h ▸ List.mem_map_of_mem hk)
        rw [EntityTable.contains_push, hnew k hk, Bool.or_false, beq_eq_false_iff_ne]
        exact hne
      obtain ⟨next, hrun⟩ := l.run_harmless hl hharmless hdata hfresh position (layoutLines ls ++ r)
      obtain ⟨finish, problems, ⟨hkind, hentity⟩, hrest⟩ := ih hls hids.2
        (p := { p with table := p.table.push l.raw.entity }) hdata hnew' next
      rw [List.filter_cons_of_pos hharmless, List.map_cons, List.foldl_cons]
      refine ⟨finish, problems, ⟨hkind, ?_⟩, hrun.trans hrest⟩
      rw [hentity, List.filter_cons_of_neg (by rw [hharmless]; decide)]
    | false =>
      obtain ⟨next, problem, hkind₁, hentity₁, hrun⟩ := l.run_harmful hl hharmless hdata position
        (layoutLines ls ++ r)
      obtain ⟨finish, problems, ⟨hkind, hentity⟩, hrest⟩ := ih hls hids.2
        (p := { p with log := p.log.push problem }) hdata hnew next
      rw [List.filter_cons_of_neg (by rw [hharmless]; decide)]
      refine ⟨finish, problem :: problems, ⟨List.forall_mem_cons.mpr ⟨hkind₁, hkind⟩, ?_⟩, hrun.trans hrest⟩
      rw [List.filter_cons_of_pos (by rw [hharmless]; rfl), List.map_cons, List.map_cons, hentity₁, hentity]

/-- A file of layouts is read: it has the entities of the harmless ones, and a problem for each other. -/
lemma parse_layoutFile {ls : List (Layout showReal)} (hls : ∀ l ∈ ls, l.raw.Writable showReal)
    (hids : (ls.map (·.raw.id)).Nodup) (tail : List Char) (limit : Nat) :
    ∃ file problems, ExchangeFile.parse (layoutFile ls ++ tail) limit = .ok file ∧ Loses ls problems ∧
      file.entities = (ls.filter (·.harmless)).map (·.raw.entity) ∧
      file.log = (ProblemLog.empty limit).pushAll problems := by
  have htext : layoutFile ls ++ tail = keywordLine "ISO-10303-21" (keywordLine "DATA"
      (layoutLines ls ++ keywordLine "ENDSEC" ("END-ISO-10303-21".toList ++ ';' :: tail))) := by
    simp [layoutFile, keywordLine]
  obtain ⟨first, hopened⟩ := run_opening limit
    (layoutLines ls ++ keywordLine "ENDSEC" ("END-ISO-10303-21".toList ++ ';' :: tail))
  obtain ⟨last, problems, hloses, hlines⟩ := run_layoutLines hls hids
    (p := { signed := true, hasData := true, here := some .data, log := .empty limit }) rfl
    (fun l _ => Std.HashMap.contains_empty) first
    (keywordLine "ENDSEC" ("END-ISO-10303-21".toList ++ ';' :: tail))
  have hread := readStatements_eq (layoutFile ls ++ tail) limit
  rw [htext, hopened, hlines, run_closing] at hread
  refine ⟨⟨{}, ((ls.filter (·.harmless)).map (·.raw.entity)).foldl EntityTable.push {},
    (ProblemLog.empty limit).pushAll problems⟩, problems, ?_, hloses, ?_, rfl⟩
  · simp only [ExchangeFile.parse, htext, hread, if_true]
  · rw [ExchangeFile.entities, EntityTable.entities_foldl_push]
    rfl

/-- White space between the tokens of a written file does not matter, except after the name of a typed
value; a comment does. Each instance with one or the other is lost with one problem, and all others are
read as if they had been written without gaps. -/
theorem ExchangeFile.parse_layouts (showReal : Float → List Char) (ls : List (Layout showReal))
    (hls : ∀ l ∈ ls, l.raw.Writable showReal) (hids : (ls.map (·.raw.id)).Nodup) (tail : List Char)
    (limit : Nat) :
    ((∀ l ∈ ls, ∀ p ∈ l.pieces, p.gap = []) → layoutFile ls = writeFile showReal (ls.map (·.raw))) ∧
    ∃ file problems, ExchangeFile.parse (layoutFile ls ++ tail) limit = .ok file ∧
      file.entities = (ls.filter (·.harmless)).map
        (fun l => ⟨l.raw.id, Kind.ofName l.raw.typeName, l.raw.params⟩) ∧
      file.log = (ProblemLog.empty limit).pushAll problems ∧
      problems.map (·.entity) = (ls.filter (!·.harmless)).map (some ·.raw.id) ∧
      (∀ problem ∈ problems, problem.kind = .entityParse) ∧
      ((file.entities = ls.map (fun l => ⟨l.raw.id, Kind.ofName l.raw.typeName, l.raw.params⟩) ∧
        file.log.total = 0) ↔ ∀ l ∈ ls, l.harmless = true) := by
  obtain ⟨file, problems, hparse, hloses, hentities, hlog⟩ := parse_layoutFile hls hids tail limit
  refine ⟨layoutFile_eq_writeFile, file, problems, hparse, hentities, hlog, hloses.entity, hloses.kind, ?_⟩
  constructor
  · -- If an instance is lost, there are fewer entities than instances.
    rintro ⟨hall, -⟩
    have hlength := congrArg List.length (hentities.symm.trans hall)
    rw [List.length_map, List.length_map, List.length_filter_eq_length_iff] at hlength
    exact hlength
  · intro hall
    have hkeep : ls.filter (·.harmless) = ls := List.filter_eq_self.mpr hall
    have hlost : ls.filter (!·.harmless) = [] := by
      rw [List.filter_eq_nil_iff]
      intro l hl
      rw [hall l hl]
      decide
    refine ⟨by rw [hentities, hkeep]; rfl, ?_⟩
    have hnone := hloses.entity
    rw [hlost, List.map_nil, List.map_eq_nil_iff] at hnone
    rw [hlog, hnone]
    exact ProblemLog.total_empty limit

/-- The layout that has the same gap after equal tokens. -/
def Layout.spread (raw : RawInstance) (gapAfter : Token → List Char) (hgap : ∀ t, Gap (gapAfter t)) :
    Layout showReal where
  raw := raw
  pieces := (raw.tokens showReal).map fun t => ⟨t, gapAfter t⟩
  tokens_eq := by
    rw [List.map_map]
    exact List.map_id _
  gap := by
    intro p hp
    obtain ⟨t, -, rfl⟩ := List.mem_map.mp hp
    exact hgap t

/-- Line ends and blanks after all tokens that may have them. -/
def airyGap : Token → List Char
  | .word _ => ['\n', ' ', '\t']
  | .typeName _ => []

/-- Line ends and blanks are gaps. -/
lemma gap_airyGap : ∀ t, Gap (airyGap t)
  | .word _ => .blank rfl (.blank rfl (.blank rfl .nil))
  | .typeName _ => .nil

/-- A comment after each opening bracket. -/
def commentGap (body : List Char) (t : Token) : List Char :=
  if t = .word ['('] then '/' :: '*' :: (body ++ ['*', '/']) else []

/-- Comments are gaps. -/
lemma gap_commentGap {body : List Char} (hbody : ¬ ['*', '/'] <:+: body) (t : Token) :
    Gap (commentGap body t) := by
  unfold commentGap
  split
  · exact .comment hbody .nil
  · exact .nil

/-- A blank after the name of a typed value. -/
def nameGap : Token → List Char
  | .word _ => []
  | .typeName _ => [' ']

lemma gap_nameGap : ∀ t, Gap (nameGap t)
  | .word _ => .nil
  | .typeName _ => .blank rfl .nil

/-- Three instances, of which only the first one is read. The comment looks like the end of a statement and
the start of another. -/
def mixedLayouts : List (Layout fun _ => ['1', '.', '5']) := [
  .spread (hardInstances.get ⟨0, by decide⟩) airyGap gap_airyGap,
  .spread (hardInstances.get ⟨1, by decide⟩) (commentGap [';', '\n', '#', '9', '=', '\''])
    (gap_commentGap (by decide)),
  .spread ⟨9, "A", [.typed "B" []]⟩ nameGap gap_nameGap]

/-- All three instances can be written. -/
lemma mixedLayouts_writable : ∀ l ∈ mixedLayouts, l.raw.Writable fun _ => ['1', '.', '5'] := by
  have hname : IsTypeName "A" := ⟨by simp, by simp⟩
  have htyped : (Value.typed "B" []).Writable fun _ => ['1', '.', '5'] :=
    .typed ⟨by simp, by simp⟩ (by simp) (by simp)
  simp only [mixedLayouts, List.mem_cons, List.not_mem_nil, or_false, forall_eq_or_imp, forall_eq]
  exact ⟨hardInstances_writable _ (List.get_mem _ _), hardInstances_writable _ (List.get_mem _ _),
    hname, List.forall_mem_singleton.mpr htyped⟩

/-- The first layout is read, and there is a problem for each of the other two. -/
theorem ExchangeFile.parse_layouts_mixedLayouts :
    ∃ file problems, ExchangeFile.parse (layoutFile mixedLayouts ++ ['\n']) 50 = .ok file ∧
      file.entities = (hardInstances.take 1).map (fun e => ⟨e.id, Kind.ofName e.typeName, e.params⟩) ∧
      file.log = (ProblemLog.empty 50).pushAll problems ∧
      problems.map (·.entity) = [some 0, some 9] ∧ ∀ problem ∈ problems, problem.kind = .entityParse := by
  obtain ⟨-, file, problems, hparse, hentities, hlog, hentity, hkind, -⟩ :=
    ExchangeFile.parse_layouts _ mixedLayouts mixedLayouts_writable (by decide) ['\n'] 50
  exact ⟨file, problems, hparse, hentities, hlog, hentity, hkind⟩

/-- A file with one instance. -/
def singleFile (line : String) : List Char :=
  ("ISO-10303-21;\nDATA;\n" ++ line ++ "\nENDSEC;\nEND-ISO-10303-21;").toList

/-- A single instance with a gap that does harm is lost, and there is one problem. -/
lemma parse_singleFile {l : Layout fun _ => []} (hraw : l.raw.Writable fun _ => []) {line : String}
    (hline : layoutFile [l] = singleFile line) (hl : l.harmless = false) (limit : Nat) :
    ∃ file, ExchangeFile.parse (singleFile line) limit = .ok file ∧ file.entities = [] ∧ file.log.total = 1 := by
  obtain ⟨file, problems, hparse, hloses, hentities, hlog⟩ :=
    parse_layoutFile (List.forall_mem_singleton.mpr hraw) (List.nodup_singleton _) [] limit
  have hlength := congrArg List.length hloses.entity
  rw [List.filter_cons_of_pos (by rw [hl]; rfl), List.length_map] at hlength
  rw [List.append_nil, hline] at hparse
  refine ⟨file, hparse, ?_, ?_⟩
  · rw [hentities, List.filter_cons_of_neg (by rw [hl]; decide)]
    rfl
  · rw [hlog, ProblemLog.total_pushAll, ProblemLog.total_empty, hlength]
    rfl

/-- An instance is lost with a comment between two of its tokens, and with a blank after the name of a
typed value. -/
theorem ExchangeFile.parse_gaps_lost :
    (∃ file, ExchangeFile.parse (singleFile "#1=A(/* c */1);") 50 = .ok file ∧
      file.entities = [] ∧ file.log.total = 1) ∧
    ∃ file, ExchangeFile.parse (singleFile "#1=A(B (1));") 50 = .ok file ∧
      file.entities = [] ∧ file.log.total = 1 := by
  have hname : IsTypeName "A" := ⟨by simp, by simp⟩
  have hinteger : (Value.integer 1).Writable fun _ => [] := .integer 1
  have htyped : (Value.typed "B" [.integer 1]).Writable fun _ => [] :=
    .typed ⟨by simp, by simp⟩ (by simp) (List.forall_mem_singleton.mpr hinteger)
  constructor
  · let l : Layout fun _ => [] :=
      .spread ⟨1, "A", [.integer 1]⟩ (commentGap [' ', 'c', ' ']) (gap_commentGap (by decide))
    exact parse_singleFile (l := l) ⟨hname, List.forall_mem_singleton.mpr hinteger⟩ rfl rfl 50
  · let l : Layout fun _ => [] := .spread ⟨1, "A", [.typed "B" [.integer 1]]⟩ nameGap gap_nameGap
    exact parse_singleFile (l := l) ⟨hname, List.forall_mem_singleton.mpr htyped⟩ rfl rfl 50

end BuildingModel
