import BuildingModel.Proofs.Exchange.Boundary
import BuildingModel.Proofs.Exchange.RoundTrip

/-!
# Layouts of an instance

The text of an instance is a row of tokens, and a layout puts a gap after each of them: white space and
comments, of any length. Cutting goes through every layout up to the semicolon, whatever the comments
say. Reading does not: `Layout.instanceText` says that a layout is a text of its instance if there is
nothing but white space in its gaps, and none after the name of a typed value.
-/

namespace BuildingModel.Exchange

open Text

/-! ## Gaps -/

/-- White space and comments. A comment ends at the first star with a slash after it. -/
inductive Gap : List Char → Prop where
  | nil : Gap []
  | blank {c g} (hc : isBlank c = true) (hg : Gap g) : Gap (c :: g)
  | comment {body g} (hbody : ¬ ['*', '/'] <:+: body) (hg : Gap g) :
      Gap ('/' :: '*' :: (body ++ '*' :: '/' :: g))

/-- In a comment cutting only looks for its end. -/
lemma cut_comment_cons (star : Bool) (taken : List Char) (c : Char) (s : List Char) :
    cut (.comment star) taken (c :: s) =
      cut (if star && c = '/' then .plain else .comment (c = '*')) (c :: taken) s := by
  rw [cut, if_neg (by simp), if_neg (by simp)]
  rfl

/-- Cutting comes through a comment to its end. -/
lemma cut_comment {body : List Char} (hbody : ¬ ['*', '/'] <:+: body) {star : Bool}
    (hstar : star = true → body.head? ≠ some '/') (taken r : List Char) :
    cut (.comment star) taken (body ++ '*' :: '/' :: r) =
      cut .plain ('/' :: '*' :: (body.reverse ++ taken)) r := by
  induction body generalizing star taken with
  | nil =>
    rw [List.nil_append, cut_comment_cons, if_neg (by simp), cut_comment_cons]
    rfl
  | cons c body ih =>
    have hopen : (star && decide (c = '/')) = false := by
      rw [Bool.and_eq_false_iff, decide_eq_false_iff_not]
      cases star with
      | false => exact .inl rfl
      | true => exact .inr fun h => hstar rfl (congrArg some h)
    have hrest : ¬ ['*', '/'] <:+: body := fun h => hbody (h.trans (List.suffix_cons c body).isInfix)
    have hnext : decide (c = '*') = true → body.head? ≠ some '/' := by
      intro hc hslash
      obtain ⟨s, rfl⟩ := List.head?_eq_some_iff.mp hslash
      rw [of_decide_eq_true hc] at hbody
      exact hbody (List.prefix_append ['*', '/'] s).isInfix
    rw [List.cons_append, cut_comment_cons, hopen, if_neg (by decide), ih hrest hnext, List.reverse_cons,
      List.append_assoc]
    rfl

/-- A comment says nothing to cutting. -/
lemma passes_comment {body : List Char} (hbody : ¬ ['*', '/'] <:+: body) :
    Passes ('/' :: '*' :: (body ++ ['*', '/'])) := by
  intro taken r
  have hopening : cut .plain taken ('/' :: '*' :: (body ++ '*' :: '/' :: r)) =
      cut (.comment false) ('*' :: '/' :: taken) (body ++ '*' :: '/' :: r) := by
    rw [cut, if_neg (by simp), if_neg (by simp), cut, if_neg (by simp [Mode.step, opensComment]),
      if_neg (by simp [Mode.step, opensComment])]
    rfl
  simp only [List.cons_append, List.append_assoc, List.nil_append]
  rw [hopening, cut_comment hbody (by simp)]
  simp

/-- Cutting goes through a text if something follows it. -/
def PassesBefore (t r : List Char) : Prop :=
  ∀ taken, cut .plain taken (t ++ r) = cut .plain (t.reverse ++ taken) r

/-- What cutting always goes through it goes through before something. -/
lemma Passes.before {t : List Char} (ht : Passes t) (r : List Char) : PassesBefore t r :=
  fun taken => ht taken r

/-- Texts that are gone through follow each other. -/
lemma PassesBefore.append {s t r : List Char} (hs : PassesBefore s (t ++ r)) (ht : PassesBefore t r) :
    PassesBefore (s ++ t) r := by
  intro taken
  rw [List.append_assoc, hs, ht, List.reverse_append, List.append_assoc]

namespace Gap

variable {g r : List Char}

/-- A gap before something that opens no instance opens none. -/
lemma opensInstance_append (hg : Gap g) (hr : opensInstance r = false) :
    opensInstance (g ++ r) = false := by
  induction hg with
  | nil => exact hr
  | @blank c g hc hg ih =>
    have hblank : Blanks [c] := List.forall_mem_singleton.mpr hc
    exact hblank.opensInstance_append ih
  | comment hbody hg ih => exact opensInstance_of_ne rfl (by decide) _

/-- Cutting goes through a gap. Only what follows a line end in it could stop this. -/
lemma passesBefore (hg : Gap g) (hr : opensInstance r = false) : PassesBefore g r := by
  induction hg with
  | nil => exact passes_nil.before r
  | @blank c g hc hg ih =>
    have hblank : Through [c] (g ++ r) [] :=
      .of_blanks (List.forall_mem_singleton.mpr hc) (hg.opensInstance_append hr)
    exact PassesBefore.append (s := [c]) (hblank.passes fun b hb => absurd hb List.not_mem_nil) ih
  | @comment body g hbody hg ih =>
    have hpass := ((passes_comment hbody).before (g ++ r)).append ih
    simpa only [List.cons_append, List.append_assoc, List.nil_append] using hpass

/-- A gap keeps a digit behind it away. -/
lemma stops_isDigit (hg : Gap g) (hr : Stops Char.isDigit r) : Stops Char.isDigit (g ++ r) := by
  cases hg with
  | nil => exact hr
  | blank hc hg =>
    have hkey := isKeywordChar_of_isDelimiter (by rw [isDelimiter, hc]; rfl)
    exact (stops_cons.mpr hkey).isDigit
  | comment hbody hg => exact stops_cons.mpr rfl

/-- After a gap before the end of a value comes no equals sign. -/
lemma stops_equals (hg : Gap g) (hr : Closed r) : Stops (· == '=') (skipBlanks (g ++ r)) := by
  induction hg with
  | nil =>
    have hskip := hr.skipBlanks blanks_nil
    rw [List.nil_append] at hskip ⊢
    rw [hskip]
    exact hr.stops_equals
  | @blank c g hc hg ih =>
    have hskip := skipBlanks_append (s := g ++ r) (List.forall_mem_singleton.mpr hc : Blanks [c])
    rw [List.singleton_append] at hskip
    rw [List.cons_append, hskip]
    exact ih
  | comment hbody hg ih =>
    rw [List.cons_append, skipBlanks_cons rfl]
    exact stops_cons.mpr rfl

end Gap

/-! ## Tokens -/

/-- A token of an instance. -/
inductive Token where
  | word (chars : List Char)
  /-- The name of a typed value. -/
  | typeName (chars : List Char)
deriving DecidableEq

def Token.chars : Token → List Char
  | .word chars => chars
  | .typeName chars => chars

end BuildingModel.Exchange

namespace BuildingModel

open Exchange Text

namespace Value

variable (showReal : Float → List Char)

mutual
/-- The tokens of a value. -/
def tokens : Value → List Token
  | .list items => .word ['('] :: (itemsTokens items ++ [.word [')']])
  | .typed name args => .typeName name.toList :: .word ['('] :: (itemsTokens args ++ [.word [')']])
  | v => [.word (v.write showReal)]

/-- The tokens of some values, with commas between them. -/
def itemsTokens : List Value → List Token
  | [] => []
  | [v] => v.tokens
  | v :: w :: vs => v.tokens ++ .word [','] :: itemsTokens (w :: vs)
end

end Value

/-- The tokens of an instance, without the semicolon. -/
def Exchange.RawInstance.tokens (showReal : Float → List Char) (e : RawInstance) : List Token :=
  .word ('#' :: Nat.toDigits 10 e.id.toNat) :: .word ['='] :: .word e.typeName.toList ::
    .word ['('] :: (Value.itemsTokens showReal e.params ++ [.word [')']])

namespace Value

variable {showReal : Float → List Char}

/-- A simple value is one token. -/
lemma tokens_of_isSimple {v : Value} (hsimple : v.isSimple = true) :
    v.tokens showReal = [.word (v.write showReal)] := by
  cases v with
  | list items => cases hsimple
  | typed name args => cases hsimple
  | integer | real | text | ref | enum | omitted | derived => simp [tokens]

mutual
/-- The tokens of a value are its text, cut into pieces. -/
lemma chars_tokens : ∀ v : Value, (v.tokens showReal).flatMap Token.chars = v.write showReal
  | .list items => by
    simp only [tokens, write, List.flatMap_cons, List.flatMap_append, chars_itemsTokens items, Token.chars]
    rfl
  | .typed name args => by
    simp only [tokens, write, List.flatMap_cons, List.flatMap_append, chars_itemsTokens args, Token.chars]
    rfl
  | .integer _ | .real _ | .text _ | .ref _ | .enum _ | .omitted | .derived => by
    rw [tokens_of_isSimple rfl]
    exact List.append_nil _

/-- So are the tokens of some values. -/
lemma chars_itemsTokens : ∀ vs : List Value,
    (itemsTokens showReal vs).flatMap Token.chars = writeItems showReal vs
  | [] => by rw [itemsTokens, writeItems, List.flatMap_nil]
  | [v] => by rw [itemsTokens, writeItems, chars_tokens v]
  | v :: w :: vs => by
    rw [itemsTokens, writeItems, List.flatMap_append, List.flatMap_cons, chars_tokens v,
      chars_itemsTokens (w :: vs)]
    rfl
end

end Value

/-- The tokens one after the other are the written instance. -/
lemma Exchange.RawInstance.chars_tokens (showReal : Float → List Char) (e : RawInstance) :
    (e.tokens showReal).flatMap Token.chars = e.write showReal := by
  simp only [RawInstance.tokens, RawInstance.write, List.flatMap_cons, List.flatMap_append,
    Value.chars_itemsTokens, Token.chars]
  rfl

/-! ## Layouts -/

namespace Exchange

/-- A token and the gap after it. -/
structure Piece where
  token : Token
  gap : List Char

/-- There is only white space after a token, and nothing after the name of a typed value. -/
def Piece.harmless (p : Piece) : Bool :=
  match p.token with
  | .word _ => p.gap.all isBlank
  | .typeName _ => p.gap.isEmpty

/-- What is written for some pieces. -/
def piecesText (ps : List Piece) : List Char := ps.flatMap fun p => p.token.chars ++ p.gap

end Exchange

/-- An instance whose tokens are written with gaps after them. -/
structure Layout (showReal : Float → List Char) where
  raw : RawInstance
  pieces : List Piece
  tokens_eq : pieces.map (·.token) = raw.tokens showReal
  gap : ∀ p ∈ pieces, Gap p.gap

/-- Whether all pieces of a layout are harmless. -/
def Layout.harmless {showReal : Float → List Char} (l : Layout showReal) : Bool :=
  l.pieces.all Piece.harmless

/-- The text of a layout, without the semicolon. -/
def Layout.text {showReal : Float → List Char} (l : Layout showReal) : List Char := piecesText l.pieces

namespace Exchange

lemma piecesText_cons (t : Token) (g : List Char) (ps : List Piece) :
    piecesText (⟨t, g⟩ :: ps) = t.chars ++ (g ++ piecesText ps) :=
  List.append_assoc _ _ _

lemma piecesText_append (ps qs : List Piece) : piecesText (ps ++ qs) = piecesText ps ++ piecesText qs :=
  List.flatMap_append

/-- Without gaps there are only the tokens. -/
lemma piecesText_of_no_gap {ps : List Piece} (hps : ∀ p ∈ ps, p.gap = []) :
    piecesText ps = (ps.map (·.token)).flatMap Token.chars := by
  rw [piecesText, List.flatMap_map]
  apply List.flatMap_congr
  intro p hp
  rw [hps p hp, List.append_nil]

/-- The gap after a harmless word is white space. -/
lemma blanks_of_harmless {w g : List Char} (h : Piece.harmless ⟨.word w, g⟩ = true) : Blanks g :=
  List.all_eq_true.mp h

/-- There is no gap after the harmless name of a typed value. -/
lemma nil_of_harmless {w g : List Char} (h : Piece.harmless ⟨.typeName w, g⟩ = true) : g = [] :=
  List.isEmpty_iff.mp h

end Exchange

namespace Value

variable {showReal : Float → List Char}

/-- Brackets and what stands between them are one row of pieces. -/
lemma exists_brackets {ps : List Piece} {ts : List Token}
    (hps : ps.map (·.token) = .word ['('] :: (ts ++ [.word [')']])) :
    ∃ g inner g', ps = ⟨.word ['('], g⟩ :: (inner ++ [⟨.word [')'], g'⟩]) ∧ inner.map (·.token) = ts := by
  obtain ⟨⟨_, g⟩, rest, rfl, rfl, hrest⟩ := List.map_eq_cons_iff.mp hps
  obtain ⟨inner, last, rfl, hinner, hlast⟩ := List.map_eq_append_iff.mp hrest
  obtain ⟨⟨_, g'⟩, nothing, rfl, rfl, hnothing⟩ := List.map_eq_cons_iff.mp hlast
  rw [List.map_eq_nil_iff] at hnothing
  exact ⟨g, inner, g', by rw [hnothing], hinner⟩

/-- The first of several items, the comma after it, and the others are one row of pieces. -/
lemma exists_items {ps : List Piece} {v w : Value} {vs : List Value}
    (hps : ps.map (·.token) = itemsTokens showReal (v :: w :: vs)) :
    ∃ first g rest, ps = first ++ ⟨.word [','], g⟩ :: rest ∧ first.map (·.token) = v.tokens showReal ∧
      rest.map (·.token) = itemsTokens showReal (w :: vs) := by
  rw [itemsTokens] at hps
  obtain ⟨first, others, rfl, hfirst, hothers⟩ := List.map_eq_append_iff.mp hps
  obtain ⟨⟨_, g⟩, rest, rfl, rfl, hrest⟩ := List.map_eq_cons_iff.mp hothers
  exact ⟨first, g, rest, rfl, hfirst, hrest⟩

/-! ## Harmless layouts are read -/

/-- Each harmless layout of a value is a text of it, after white space. -/
def ReadInLayouts (showReal : Float → List Char) (v : Value) : Prop :=
  ∀ ps b, ps.map (·.token) = v.tokens showReal → (∀ p ∈ ps, p.harmless = true) → Blanks b →
    ValueText v (b ++ piecesText ps)

/-- Items in a harmless layout are the text of these items. -/
lemma itemsText_pieces {v : Value} {vs : List Value} (hvs : ∀ u ∈ v :: vs, u.ReadInLayouts showReal)
    {ps : List Piece} {b : List Char} (hps : ps.map (·.token) = itemsTokens showReal (v :: vs))
    (hharmless : ∀ p ∈ ps, p.harmless = true) (hb : Blanks b) :
    ItemsText (v :: vs) (b ++ piecesText ps) := by
  induction vs generalizing v ps b with
  | nil =>
    rw [itemsTokens] at hps
    exact .last (hvs v List.mem_cons_self ps b hps hharmless hb)
  | cons w vs ih =>
    obtain ⟨first, g, rest, rfl, hfirst, hrest⟩ := exists_items hps
    rw [List.forall_mem_append, List.forall_mem_cons] at hharmless
    obtain ⟨hharmless₁, hcomma, hharmless₂⟩ := hharmless
    have htext := hvs v List.mem_cons_self first b hfirst hharmless₁ hb
    have hothers := ih (fun u hu => hvs u (List.mem_cons_of_mem _ hu)) hrest hharmless₂
      (blanks_of_harmless hcomma)
    rw [piecesText_append, piecesText_cons, ← List.append_assoc]
    exact .more htext hothers

/-- So is a list in its brackets, with white space after it. -/
lemma listText_pieces {vs : List Value} (hvs : ∀ u ∈ vs, u.ReadInLayouts showReal) {ps : List Piece}
    (hps : ps.map (·.token) = .word ['('] :: (itemsTokens showReal vs ++ [.word [')']]))
    (hharmless : ∀ p ∈ ps, p.harmless = true) :
    ∃ t g, piecesText ps = t ++ g ∧ ListText vs t ∧ Blanks g := by
  obtain ⟨g, inner, g', rfl, hinner⟩ := exists_brackets hps
  rw [List.forall_mem_cons, List.forall_mem_append, List.forall_mem_singleton] at hharmless
  obtain ⟨hopen, hharmless, hclose⟩ := hharmless
  have htext : piecesText (⟨.word ['('], g⟩ :: (inner ++ [⟨.word [')'], g'⟩])) =
      '(' :: ((g ++ piecesText inner) ++ [')']) ++ g' := by
    simp [piecesText, Token.chars]
  refine ⟨_, g', htext, ?_, blanks_of_harmless hclose⟩
  cases vs with
  | nil =>
    rw [itemsTokens, List.map_eq_nil_iff] at hinner
    rw [hinner, piecesText, List.flatMap_nil, List.append_nil]
    exact .nil (blanks_of_harmless hopen)
  | cons v vs => exact .items (itemsText_pieces hvs hinner hharmless (blanks_of_harmless hopen))

/-- A harmless layout of any value is a text of it. The induction is on the value. -/
lemma Writable.readInLayouts {v : Value} (hv : v.Writable showReal) : v.ReadInLayouts showReal := by
  induction hv using Value.Writable.induction with
  | simple v hv hsimple =>
    intro ps b hps hharmless hb
    rw [tokens_of_isSimple hsimple] at hps
    obtain ⟨⟨_, g⟩, nothing, rfl, rfl, hnothing⟩ := List.map_eq_cons_iff.mp hps
    rw [List.map_eq_nil_iff] at hnothing
    rw [hnothing, piecesText_cons, piecesText, List.flatMap_nil, List.append_nil]
    exact .simple (hv.simpleText hsimple) hb (blanks_of_harmless (hharmless _ List.mem_cons_self))
  | list vs hvs ih =>
    intro ps b hps hharmless hb
    rw [tokens] at hps
    obtain ⟨t, g, htext, ht, hg⟩ := listText_pieces ih hps hharmless
    rw [htext]
    exact .list ht hb hg
  | typed name vs hname hhead hvs ih =>
    intro ps b hps hharmless hb
    rw [tokens] at hps
    obtain ⟨⟨_, g⟩, rest, rfl, rfl, hrest⟩ := List.map_eq_cons_iff.mp hps
    rw [List.forall_mem_cons] at hharmless
    obtain ⟨hgap, hharmless⟩ := hharmless
    obtain ⟨t, g', htext, ht, hg'⟩ := listText_pieces ih hrest hharmless
    have hvalue := ValueText.typed (hname.typeWord hhead) ht hb hg'
    rw [hname.upperCase_eq] at hvalue
    rw [piecesText_cons, nil_of_harmless hgap, htext]
    exact hvalue

end Value

namespace Layout

variable {showReal : Float → List Char}

/-- The pieces of a layout: number, equals sign and type name, and those of the parameters. -/
lemma pieces_eq (l : Layout showReal) :
    ∃ g₁ g₂ g₃ ps,
      l.pieces = ⟨.word ('#' :: Nat.toDigits 10 l.raw.id.toNat), g₁⟩ :: ⟨.word ['='], g₂⟩ ::
        ⟨.word l.raw.typeName.toList, g₃⟩ :: ps ∧
      ps.map (·.token) = .word ['('] :: (Value.itemsTokens showReal l.raw.params ++ [.word [')']]) := by
  have htokens := l.tokens_eq
  obtain ⟨⟨_, g₁⟩, rest₁, hpieces, rfl, hrest₁⟩ := List.map_eq_cons_iff.mp htokens
  obtain ⟨⟨_, g₂⟩, rest₂, rfl, rfl, hrest₂⟩ := List.map_eq_cons_iff.mp hrest₁
  obtain ⟨⟨_, g₃⟩, ps, rfl, rfl, hps⟩ := List.map_eq_cons_iff.mp hrest₂
  exact ⟨g₁, g₂, g₃, ps, hpieces, hps⟩

/-- A harmless layout is a text of its instance. -/
theorem instanceText (l : Layout showReal) (hraw : l.raw.Writable showReal) (hl : l.harmless = true) :
    InstanceText l.raw (l.text ++ [';']) := by
  obtain ⟨g₁, g₂, g₃, ps, hpieces, hps⟩ := l.pieces_eq
  rw [harmless, hpieces, List.all_eq_true] at hl
  simp only [List.forall_mem_cons] at hl
  obtain ⟨hg₁, hg₂, hg₃, hharmless⟩ := hl
  obtain ⟨t, g, htext, ht, hg⟩ :=
    Value.listText_pieces (fun v hv => (hraw.params v hv).readInLayouts) hps hharmless
  have h := InstanceText.intro (.ofNat l.raw.id.toNat) (Digits.digitsValue_ofNat _) hraw.typeName.ne_nil
    hraw.typeName.isKeywordChar ht blanks_nil (blanks_of_harmless hg₁) (blanks_of_harmless hg₂)
    (blanks_of_harmless hg₃) hg blanks_nil
  rw [hraw.typeName.upperCase_eq] at h
  have hwhole : l.text ++ [';'] = '#' :: (Nat.toDigits 10 l.raw.id.toNat ++ (g₁ ++ '=' :: (g₂ ++
      (l.raw.typeName.toList ++ (g₃ ++ (t ++ (g ++ [';']))))))) := by
    rw [text, hpieces, piecesText_cons, piecesText_cons, piecesText_cons, htext]
    simp [Token.chars]
  rw [hwhole]
  exact h

end Layout

/-! ## All layouts are cut off whole -/

namespace Exchange

/-- The pieces of values in brackets: a simple value is followed by a comma or the closing bracket, the name
of a typed value by the opening one. -/
inductive Orderly : List Piece → Prop where
  | nil : Orderly []
  | mark {c g ps} (hc : c = '(' ∨ c = ')' ∨ c = ',') (hg : Gap g) (h : Orderly ps) :
      Orderly (⟨.word [c], g⟩ :: ps)
  | simple {v w g ps} (ht : SimpleText v w) (hw : Passes w) (hg : Gap g) (hclosed : Closed (piecesText ps))
      (h : Orderly ps) : Orderly (⟨.word w, g⟩ :: ps)
  | typeName {name g ps} (hn : TypeWord name) (hg : Gap g) (hopen : ∃ s, piecesText ps = '(' :: s)
      (h : Orderly ps) : Orderly (⟨.typeName name, g⟩ :: ps)

/-- What closes a value does so with more behind it. -/
lemma Closed.append {r : List Char} (hr : Closed r) (s : List Char) : Closed (r ++ s) := by
  obtain ⟨c, t, rfl, hc⟩ := hr
  exact ⟨c, t ++ s, rfl, hc⟩

/-- A comma or a bracket closes a value, whatever gap follows it. -/
lemma closed_piecesText {c : Char} (hc : c = ',' ∨ c = ')') (g : List Char) (ps : List Piece) :
    Closed (piecesText (⟨.word [c], g⟩ :: ps)) :=
  ⟨c, g ++ piecesText ps, piecesText_cons _ _ _, hc⟩

/-- Cutting goes through a token and the gap after it. -/
lemma PassesBefore.piece {t : Token} {g r : List Char} {ps : List Piece} (ht : Passes t.chars) (hg : Gap g)
    (hopens : opensInstance (piecesText ps ++ r) = false) (hps : PassesBefore (piecesText ps) r) :
    PassesBefore (piecesText (⟨t, g⟩ :: ps)) r := by
  rw [piecesText_cons]
  exact (ht.before _).append ((hg.passesBefore hopens).append hps)

namespace Orderly

variable {ps : List Piece}

/-- Pieces in order open no instance. -/
lemma opensInstance_text (hps : Orderly ps) (r : List Char) :
    opensInstance (piecesText ps ++ ';' :: r) = false := by
  cases hps with
  | nil => exact opensInstance_of_ne rfl (by decide) r
  | mark hc hg h =>
    rcases hc with rfl | rfl | rfl
    · exact opensInstance_of_ne rfl (by decide) _
    · exact opensInstance_of_ne rfl (by decide) _
    · exact opensInstance_of_ne rfl (by decide) _
  | simple ht hw hg hclosed h =>
    have hafter := hclosed.append (';' :: r)
    rw [piecesText_cons, List.append_assoc, List.append_assoc]
    exact ht.opensInstance_append (hg.stops_isDigit hafter.delimited.stops_isDigit) (hg.stops_equals hafter)
  | typeName hn hg hopen h =>
    rw [piecesText_cons, List.append_assoc]
    exact opensInstance_word hn.ne_nil hn.isKeywordChar _

/-- Cutting goes through pieces in order up to the semicolon. -/
lemma passesBefore_text (hps : Orderly ps) (r : List Char) : PassesBefore (piecesText ps) (';' :: r) := by
  induction hps with
  | nil => exact passes_nil.before _
  | @mark c g ps hc hg h ih =>
    have hmark : Passes [c] := by
      rcases hc with rfl | rfl | rfl
      · exact passes_singleton rfl
      · exact passes_singleton rfl
      · exact passes_singleton rfl
    exact .piece hmark hg (h.opensInstance_text r) ih
  | simple ht hw hg hclosed h ih => exact .piece hw hg (h.opensInstance_text r) ih
  | typeName hn hg hopen h ih =>
    exact .piece (passes_of_isKeywordChar hn.isKeywordChar) hg (h.opensInstance_text r) ih

end Orderly

end Exchange

namespace Value

variable {showReal : Float → List Char}

/-- The pieces of each layout of a value are in order before a comma or a closing bracket. -/
def OrderlyInLayouts (showReal : Float → List Char) (v : Value) : Prop :=
  ∀ ps qs, ps.map (·.token) = v.tokens showReal → (∀ p ∈ ps, Gap p.gap) → Closed (piecesText qs) →
    Orderly qs → Orderly (ps ++ qs)

/-- The pieces of items are in order before what closes the last of them. -/
lemma orderly_items {vs : List Value} (hvs : ∀ u ∈ vs, u.OrderlyInLayouts showReal) {ps qs : List Piece}
    (hps : ps.map (·.token) = itemsTokens showReal vs) (hgap : ∀ p ∈ ps, Gap p.gap)
    (hclosed : Closed (piecesText qs)) (hqs : Orderly qs) : Orderly (ps ++ qs) := by
  induction vs generalizing ps with
  | nil =>
    rw [itemsTokens, List.map_eq_nil_iff] at hps
    rwa [hps]
  | cons v vs ih =>
    obtain ⟨hv, hvs⟩ := List.forall_mem_cons.mp hvs
    cases vs with
    | nil =>
      rw [itemsTokens] at hps
      exact hv ps qs hps hgap hclosed hqs
    | cons w vs =>
      obtain ⟨first, g, rest, rfl, hfirst, hrest⟩ := exists_items hps
      rw [List.forall_mem_append, List.forall_mem_cons] at hgap
      obtain ⟨hgap₁, hcomma, hgap₂⟩ := hgap
      rw [List.append_assoc]
      exact hv first _ hfirst hgap₁ (closed_piecesText (.inl rfl) _ _)
        (.mark (.inr (.inr rfl)) hcomma (ih hvs hrest hgap₂))

/-- So are the pieces of a list, which begin with its bracket. -/
lemma orderly_brackets {vs : List Value} (hvs : ∀ u ∈ vs, u.OrderlyInLayouts showReal) {ps : List Piece}
    (hps : ps.map (·.token) = .word ['('] :: (itemsTokens showReal vs ++ [.word [')']]))
    (hgap : ∀ p ∈ ps, Gap p.gap) {qs : List Piece} (hqs : Orderly qs) :
    Orderly (ps ++ qs) ∧ ∃ s, piecesText (ps ++ qs) = '(' :: s := by
  obtain ⟨g, inner, g', rfl, hinner⟩ := exists_brackets hps
  rw [List.forall_mem_cons, List.forall_mem_append, List.forall_mem_singleton] at hgap
  obtain ⟨hopen, hgap, hclose⟩ := hgap
  have hitems := orderly_items hvs hinner hgap (closed_piecesText (.inr rfl) g' qs)
    (.mark (.inr (.inl rfl)) hclose hqs)
  refine ⟨?_, _, piecesText_cons _ _ _⟩
  rw [List.cons_append, List.append_assoc]
  exact .mark (.inl rfl) hopen hitems

/-- The pieces of any value are in order. The induction is on the value. -/
lemma Writable.orderlyInLayouts {v : Value} (hv : v.Writable showReal) : v.OrderlyInLayouts showReal := by
  induction hv using Value.Writable.induction with
  | simple v hv hsimple =>
    intro ps qs hps hgap hclosed hqs
    rw [tokens_of_isSimple hsimple] at hps
    obtain ⟨⟨_, g⟩, nothing, rfl, rfl, hnothing⟩ := List.map_eq_cons_iff.mp hps
    rw [List.map_eq_nil_iff] at hnothing
    rw [hnothing]
    exact .simple (hv.simpleText hsimple) hv.passes (hgap _ List.mem_cons_self) hclosed hqs
  | list vs hvs ih =>
    intro ps qs hps hgap hclosed hqs
    rw [tokens] at hps
    exact (orderly_brackets ih hps hgap hqs).1
  | typed name vs hname hhead hvs ih =>
    intro ps qs hps hgap hclosed hqs
    rw [tokens] at hps
    obtain ⟨⟨_, g⟩, rest, rfl, rfl, hrest⟩ := List.map_eq_cons_iff.mp hps
    obtain ⟨hg, hgap⟩ := List.forall_mem_cons.mp hgap
    obtain ⟨horderly, hopen⟩ := orderly_brackets ih hrest hgap hqs
    exact .typeName (hname.typeWord hhead) hg hopen horderly

end Value

namespace Layout

variable {showReal : Float → List Char}

/-- The parts of a layout: its gaps before the parameters, and the pieces of the parameters. -/
structure Parts (l : Layout showReal) (g₁ g₂ g₃ : List Char) (ps : List Piece) : Prop where
  pieces_eq : l.pieces = ⟨.word ('#' :: Nat.toDigits 10 l.raw.id.toNat), g₁⟩ :: ⟨.word ['='], g₂⟩ ::
    ⟨.word l.raw.typeName.toList, g₃⟩ :: ps
  gap₁ : Gap g₁
  gap₂ : Gap g₂
  gap₃ : Gap g₃
  orderly : Orderly ps
  opens : ∃ s, piecesText ps = '(' :: s

/-- Every layout has these parts. -/
lemma exists_parts (l : Layout showReal) (hraw : l.raw.Writable showReal) :
    ∃ g₁ g₂ g₃ ps, l.Parts g₁ g₂ g₃ ps := by
  obtain ⟨g₁, g₂, g₃, ps, hpieces, hps⟩ := l.pieces_eq
  have hgap := l.gap
  rw [hpieces] at hgap
  simp only [List.forall_mem_cons] at hgap
  obtain ⟨hg₁, hg₂, hg₃, hgap⟩ := hgap
  obtain ⟨horderly, hopen⟩ :=
    Value.orderly_brackets (fun v hv => (hraw.params v hv).orderlyInLayouts) hps hgap .nil
  rw [List.append_nil] at horderly hopen
  exact ⟨g₁, g₂, g₃, ps, hpieces, hg₁, hg₂, hg₃, horderly, hopen⟩

/-- A layout is cut off whole at its semicolon. -/
theorem cut_text (l : Layout showReal) (hraw : l.raw.Writable showReal) (r : List Char) :
    cut .plain [] (l.text ++ ';' :: r) = ⟨';' :: l.text.reverse, .semicolon, r⟩ := by
  obtain ⟨g₁, g₂, g₃, ps, hparts⟩ := l.exists_parts hraw
  have hname := hraw.typeName
  have hid : Passes ('#' :: Nat.toDigits 10 l.raw.id.toNat) := (Digits.ofNat l.raw.id.toNat).passes.cons rfl
  -- from the last piece to the first
  have hparams := hparts.orderly.passesBefore_text r
  have htype : PassesBefore (piecesText (⟨.word l.raw.typeName.toList, g₃⟩ :: ps)) (';' :: r) :=
    .piece (passes_of_isKeywordChar hname.isKeywordChar) hparts.gap₃ (hparts.orderly.opensInstance_text r) hparams
  have hequals : PassesBefore (piecesText (⟨.word ['='], g₂⟩ :: ⟨.word l.raw.typeName.toList, g₃⟩ :: ps))
      (';' :: r) := by
    refine .piece (passes_singleton rfl) hparts.gap₂ ?_ htype
    rw [piecesText_cons, List.append_assoc]
    exact opensInstance_word hname.ne_nil hname.isKeywordChar _
  have hpasses : PassesBefore l.text (';' :: r) := by
    rw [text, hparts.pieces_eq]
    exact .piece hid hparts.gap₁ (opensInstance_of_ne rfl (by decide) _) hequals
  rw [hpasses, List.append_nil, cut, if_pos ⟨rfl, rfl⟩]

end Layout

end BuildingModel
