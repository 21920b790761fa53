import BuildingModel.Proofs.Exchange.Layout

/-!
# Cutting loses nothing

The statements of a text and the gaps between them are the text. A gap is white space and comments, of which only
the last in the text may be unclosed. `Outside t cs` says which characters of a text stand outside of its literals
and comments: in a terminated statement the only semicolon among them is its last character, in any other there is
none. Cutting ends, with every statement after the one before, at the end of the text
(`statements_partition`).
-/

namespace BuildingModel.Exchange

open Text

/-! ## Literals and comments -/

/-- The characters of a text outside of its literals and comments. A quote in a literal is doubled, and a comment
ends at the first star with a slash after it; the last literal or comment of the text may lack its end. -/
inductive Outside : List Char → List Char → Prop where
  | nil : Outside [] []
  | plain {c t cs} (hquote : c ≠ '\'') (hcomment : opensComment c t = false) (ht : Outside t cs) :
      Outside (c :: t) (c :: cs)
  | literal {s t cs} (hend : t.head? ≠ some '\'') (ht : Outside t cs) :
      Outside ('\'' :: (doubled '\'' s ++ '\'' :: t)) cs
  | comment {body t cs} (hbody : ¬ ['*', '/'] <:+: body) (ht : Outside t cs) :
      Outside ('/' :: '*' :: (body ++ '*' :: '/' :: t)) cs
  | openLiteral {s} : Outside ('\'' :: doubled '\'' s) []
  | openComment {body} (hbody : ¬ ['*', '/'] <:+: body) : Outside ('/' :: '*' :: body) []

/-- A text after an apostrophe goes on with the end of the literal, or is all of it. -/
lemma literal_cases (t : List Char) :
    (∃ s r, t = doubled '\'' s ++ '\'' :: r ∧ r.head? ≠ some '\'') ∨ ∃ s, t = doubled '\'' s := by
  generalize hn : t.length = n
  induction n using Nat.strong_induction_on generalizing t with
  | _ n ih =>
    subst hn
    cases t with
    | nil => exact .inr ⟨[], rfl⟩
    | cons c t =>
      by_cases hc : c = '\''
      · subst hc
        by_cases ht : t.head? = some '\''
        · obtain ⟨t', rfl⟩ := List.head?_eq_some_iff.mp ht
          obtain ⟨s, r, rfl, hr⟩ | ⟨s, rfl⟩ := ih t'.length (by simp) t' rfl
          · exact .inl ⟨'\'' :: s, r, by rw [doubled_cons_self]; rfl, hr⟩
          · exact .inr ⟨'\'' :: s, (doubled_cons_self '\'' s).symm⟩
        · exact .inl ⟨[], t, rfl, ht⟩
      · obtain ⟨s, r, rfl, hr⟩ | ⟨s, rfl⟩ := ih t.length (by simp) t rfl
        · exact .inl ⟨c :: s, r, by rw [doubled_cons_of_ne hc]; rfl, hr⟩
        · exact .inr ⟨c :: s, (doubled_cons_of_ne hc s).symm⟩

/-- A text in a comment has the end of the comment in it, or none. -/
lemma comment_cases (t : List Char) :
    (∃ body r, t = body ++ '*' :: '/' :: r ∧ ¬ ['*', '/'] <:+: body) ∨ ¬ ['*', '/'] <:+: t := by
  induction t with
  | nil => exact .inr (by simp)
  | cons c t ih =>
    by_cases hends : ['*', '/'] <+: c :: t
    · obtain ⟨r, hr⟩ := hends
      exact .inl ⟨[], r, hr.symm, by simp⟩
    · obtain ⟨body, r, rfl, hbody⟩ | ht := ih
      · refine .inl ⟨c :: body, r, rfl, ?_⟩
        rw [List.infix_cons_iff, not_or]
        exact ⟨fun h => hends (h.trans (List.prefix_append (c :: body) _)), hbody⟩
      · right
        rw [List.infix_cons_iff, not_or]
        exact ⟨hends, ht⟩

/-- The characters that cutting meets in plain mode, but for those that open a literal or a comment. -/
def outsideOf (mode : Mode) : List Char → List Char
  | [] => []
  | c :: s =>
    if mode = .plain ∧ mode.step c s = .plain then c :: outsideOf (mode.step c s) s
    else outsideOf (mode.step c s) s

/-- A character that opens nothing is outside. -/
lemma outsideOf_plain {c : Char} {s : List Char} (hquote : c ≠ '\'') (hcomment : opensComment c s = false) :
    outsideOf .plain (c :: s) = c :: outsideOf .plain s := by
  have hstep : Mode.step .plain c s = .plain := by simp [Mode.step, hquote, hcomment]
  rw [outsideOf, hstep, if_pos ⟨rfl, rfl⟩]

/-- After an apostrophe comes a literal. -/
lemma outsideOf_apostrophe (s : List Char) : outsideOf .plain ('\'' :: s) = outsideOf .literal s := by
  rw [outsideOf, if_neg (by simp [Mode.step])]
  rfl

/-- A literal lasts until the next apostrophe. -/
lemma outsideOf_literal_cons (c : Char) (s : List Char) :
    outsideOf .literal (c :: s) = outsideOf (if c = '\'' then .plain else .literal) s := by
  rw [outsideOf, if_neg (by simp)]
  rfl

/-- A doubled quote does not leave the literal for good. -/
lemma outsideOf_doubled (s r : List Char) :
    outsideOf .literal (doubled '\'' s ++ r) = outsideOf .literal r := by
  induction s with
  | nil => rfl
  | cons c s ih =>
    by_cases hc : c = '\''
    · subst hc
      rw [doubled_cons_self, List.cons_append, outsideOf_literal_cons, if_pos rfl, List.cons_append,
        outsideOf_apostrophe, ih]
    · rw [doubled_cons_of_ne hc, List.cons_append, outsideOf_literal_cons, if_neg hc, ih]

/-- After a slash and a star comes a comment. -/
lemma outsideOf_opening (s : List Char) :
    outsideOf .plain ('/' :: '*' :: s) = outsideOf (.comment false) s := by
  rw [outsideOf, if_neg (by simp [Mode.step, opensComment]), outsideOf,
    if_neg (by simp [Mode.step, opensComment])]
  rfl

/-- A comment lasts until a star with a slash after it. -/
lemma outsideOf_comment_cons (star : Bool) (c : Char) (s : List Char) :
    outsideOf (.comment star) (c :: s) =
      outsideOf (if star && c = '/' then .plain else .comment (c = '*')) s := by
  rw [outsideOf, if_neg (by simp)]
  rfl

/-- No slash comes after a star in the body of a comment, so that the comment goes on after its first character. -/
lemma comment_continues {c : Char} {body : List Char} (hbody : ¬ ['*', '/'] <:+: c :: body) {star : Bool}
    (hstar : star = true → (c :: body).head? ≠ some '/') :
    (star && decide (c = '/')) = false ∧ ¬ ['*', '/'] <:+: body ∧
      (decide (c = '*') = true → body.head? ≠ some '/') := by
  refine ⟨?_, fun h => hbody (h.trans (List.suffix_cons c body).isInfix), ?_⟩
  · rw [Bool.and_eq_false_iff, decide_eq_false_iff_not]
    cases star with
    | false => exact .inl rfl
    | true => exact .inr fun h => hstar rfl (congrArg some h)
  · intro hc hslash
    obtain ⟨s, rfl⟩ := List.head?_eq_some_iff.mp hslash
    rw [of_decide_eq_true hc] at hbody
    exact hbody (List.prefix_append ['*', '/'] s).isInfix

/-- A comment that is closed is passed over. -/
lemma outsideOf_comment {body : List Char} (hbody : ¬ ['*', '/'] <:+: body) {star : Bool}
    (hstar : star = true → body.head? ≠ some '/') (r : List Char) :
    outsideOf (.comment star) (body ++ '*' :: '/' :: r) = outsideOf .plain r := by
  induction body generalizing star with
  | nil =>
    rw [List.nil_append, outsideOf_comment_cons, if_neg (by simp), outsideOf_comment_cons]
    rfl
  | cons c body ih =>
    obtain ⟨hopen, hrest, hnext⟩ := comment_continues hbody hstar
    rw [List.cons_append, outsideOf_comment_cons, hopen, if_neg (by decide), ih hrest hnext]

/-- Nothing follows a comment that is not closed. -/
lemma outsideOf_openComment {body : List Char} (hbody : ¬ ['*', '/'] <:+: body) {star : Bool}
    (hstar : star = true → body.head? ≠ some '/') : outsideOf (.comment star) body = [] := by
  induction body generalizing star with
  | nil => rfl
  | cons c body ih =>
    obtain ⟨hopen, hrest, hnext⟩ := comment_continues hbody hstar
    rw [outsideOf_comment_cons, hopen, if_neg (by decide), ih hrest hnext]

/-- The relation determines what the function computes. -/
lemma Outside.eq {t cs : List Char} (h : Outside t cs) : outsideOf .plain t = cs := by
  induction h with
  | nil => rfl
  | plain hquote hcomment ht ih => rw [outsideOf_plain hquote hcomment, ih]
  | literal hend ht ih =>
    rw [outsideOf_apostrophe, outsideOf_doubled, outsideOf_literal_cons, if_pos rfl, ih]
  | comment hbody ht ih => rw [outsideOf_opening, outsideOf_comment hbody (by simp), ih]
  | @openLiteral s =>
    have h := outsideOf_doubled s []
    rw [List.append_nil] at h
    rw [outsideOf_apostrophe, h]
    rfl
  | openComment hbody => rw [outsideOf_opening, outsideOf_openComment hbody (by simp)]

/-- Every text has characters outside of its literals and comments. The recursion is on its length. -/
lemma exists_outside (t : List Char) : ∃ cs, Outside t cs := by
  generalize hn : t.length = n
  induction n using Nat.strong_induction_on generalizing t with
  | _ n ih =>
    subst hn
    cases t with
    | nil => exact ⟨[], .nil⟩
    | cons c t =>
      by_cases hquote : c = '\''
      · subst hquote
        obtain ⟨s, r, rfl, hr⟩ | ⟨s, rfl⟩ := literal_cases t
        · obtain ⟨cs, hcs⟩ := ih r.length (by simp; omega) r rfl
          exact ⟨cs, .literal hr hcs⟩
        · exact ⟨[], .openLiteral⟩
      · cases hopens : opensComment c t with
        | false =>
          obtain ⟨cs, hcs⟩ := ih t.length (by simp) t rfl
          exact ⟨c :: cs, .plain hquote hopens hcs⟩
        | true =>
          simp only [opensComment, Bool.and_eq_true, decide_eq_true_eq] at hopens
          obtain ⟨rfl, hstar⟩ := hopens
          obtain ⟨t, rfl⟩ := List.head?_eq_some_iff.mp hstar
          obtain ⟨body, r, rfl, hbody⟩ | hbody := comment_cases t
          · obtain ⟨cs, hcs⟩ := ih r.length (by simp; omega) r rfl
            exact ⟨cs, .comment hbody hcs⟩
          · exact ⟨[], .openComment hbody⟩

/-- Each text has exactly one row of characters outside of its literals and comments. -/
lemma outside_iff {t cs : List Char} : Outside t cs ↔ outsideOf .plain t = cs := by
  constructor
  · exact Outside.eq
  · rintro rfl
    obtain ⟨cs, hcs⟩ := exists_outside t
    rwa [hcs.eq]

/-! ## Cutting -/

/-- The next character can only open a comment together with the one after it. -/
lemma step_append {t r : List Char} (h : t ≠ [] ∨ r.head? ≠ some '*') (mode : Mode) (c : Char) :
    mode.step c (t ++ r) = mode.step c t := by
  have hopens : opensComment c (t ++ r) = opensComment c t := by
    cases t with
    | nil =>
      rcases h with h | h
      · exact absurd rfl h
      · simp [opensComment, h]
    | cons d t => rfl
  simp only [Mode.step, hopens]

/-- A character that ends no statement adds no semicolon. -/
lemma exists_outsideOf_cons {mode : Mode} {c : Char} (hc : ¬ (mode = .plain ∧ c = ';')) (t : List Char) :
    ∃ cs, ';' ∉ cs ∧ outsideOf mode (c :: t) = cs ++ outsideOf (mode.step c t) t := by
  rw [outsideOf]
  split
  · rename_i h
    refine ⟨[c], ?_, rfl⟩
    rw [List.mem_singleton]
    exact fun hsemicolon => hc ⟨h.1, hsemicolon.symm⟩
  · exact ⟨[], List.not_mem_nil, rfl⟩

/-- Text that is added shows only at the end, unless it makes a comment of the last slash. -/
lemma outsideOf_begin (mode : Mode) (t : List Char) {r : List Char} (hr : r.head? ≠ some '*') :
    outsideOf mode t <+: outsideOf mode (t ++ r) := by
  induction t generalizing mode with
  | nil => exact List.nil_prefix
  | cons c t ih =>
    rw [List.cons_append, outsideOf, outsideOf, step_append (.inr hr)]
    split
    · exact (List.prefix_cons_inj c).mpr (ih _)
    · exact ih _

/-- Cutting ends at the first semicolon outside of literals and comments, or before it at a line that opens an
instance, or at the end of the text. -/
lemma cut_cases (mode : Mode) (taken s : List Char) :
    (∃ t r cs, s = t ++ ';' :: r ∧ cut mode taken s = ⟨';' :: (t.reverse ++ taken), .semicolon, r⟩ ∧
      outsideOf mode (t ++ [';']) = cs ++ [';'] ∧ ';' ∉ cs) ∨
    (∃ t r, s = t ++ '\n' :: r ∧ opensInstance r = true ∧
      cut mode taken s = ⟨t.reverse ++ taken, .newInstance, r⟩ ∧ ';' ∉ outsideOf mode t) ∨
    (cut mode taken s = ⟨s.reverse ++ taken, .endOfFile, []⟩ ∧ ';' ∉ outsideOf mode s) := by
  induction s generalizing mode taken with
  | nil => exact .inr (.inr ⟨rfl, List.not_mem_nil⟩)
  | cons c s ih =>
    rw [cut]
    split
    · rename_i hsemicolon
      obtain ⟨rfl, rfl⟩ := hsemicolon
      exact .inl ⟨[], s, [], rfl, rfl, by simp [outsideOf, Mode.step, opensComment], List.not_mem_nil⟩
    · rename_i hsemicolon
      split
      · rename_i hline
        obtain ⟨rfl, rfl, hopens⟩ := hline
        exact .inr (.inl ⟨[], s, rfl, hopens, rfl, List.not_mem_nil⟩)
      · -- The mode after `c` does not hang on how much of the text after it belongs to the statement.
        obtain ⟨t, r, cs, rfl, hcut, houtside, hcs⟩ | ⟨t, r, rfl, hopens, hcut, houtside⟩ | ⟨hcut, houtside⟩ :=
          ih (mode.step c s) (c :: taken)
        · have hstep : mode.step c (t ++ ';' :: r) = mode.step c (t ++ [';']) := by
            have h := step_append (t := t ++ [';']) (r := r) (.inl (by simp)) mode c
            rwa [List.append_assoc] at h
          obtain ⟨ds, hds, heq⟩ := exists_outsideOf_cons hsemicolon (t ++ [';'])
          refine .inl ⟨c :: t, r, ds ++ cs, rfl, ?_, ?_, ?_⟩
          · rw [hcut, List.reverse_cons, List.append_assoc]
            rfl
          · rw [List.cons_append, heq, ← hstep, houtside, List.append_assoc]
          · rw [List.mem_append, not_or]
            exact ⟨hds, hcs⟩
        · have hstep : mode.step c (t ++ '\n' :: r) = mode.step c t := step_append (.inr (by simp)) mode c
          obtain ⟨ds, hds, heq⟩ := exists_outsideOf_cons hsemicolon t
          refine .inr (.inl ⟨c :: t, r, rfl, hopens, ?_, ?_⟩)
          · rw [hcut, List.reverse_cons, List.append_assoc]
            rfl
          · rw [heq, ← hstep, List.mem_append, not_or]
            exact ⟨hds, houtside⟩
        · obtain ⟨ds, hds, heq⟩ := exists_outsideOf_cons hsemicolon s
          refine .inr (.inr ⟨?_, ?_⟩)
          · rw [hcut, List.reverse_cons, List.append_assoc]
            rfl
          · rw [heq, List.mem_append, not_or]
            exact ⟨hds, houtside⟩

/-- Trimming takes white space away. -/
lemma exists_trimEnd (t : List Char) : ∃ b, Blanks b ∧ t = trimEnd t ++ b := by
  obtain ⟨b, hb, ht⟩ := exists_blanks t.reverse
  refine ⟨b.reverse, fun c hc => hb c (List.mem_reverse.mp hc), ?_⟩
  rw [trimEnd, ← List.reverse_append]
  exact List.reverse_eq_iff.mp ht

/-! ## Gaps between statements -/

/-- White space and comments, of which the last may lack its end. -/
inductive FinalGap : List Char → Prop where
  | closed {g} (hg : Gap g) : FinalGap g
  | unclosed {g body} (hg : Gap g) (hbody : ¬ ['*', '/'] <:+: body) : FinalGap (g ++ '/' :: '*' :: body)

/-- Gaps one after the other are a gap. -/
lemma Gap.append {g g' : List Char} (hg : Gap g) (hg' : Gap g') : Gap (g ++ g') := by
  induction hg with
  | nil => exact hg'
  | blank hc hg ih => exact .blank hc ih
  | comment hbody hg ih =>
    simp only [List.cons_append, List.append_assoc]
    exact .comment hbody ih

/-- Blanks are a gap. -/
lemma Blanks.gap {b : List Char} (hb : Blanks b) : Gap b := by
  induction b with
  | nil => exact .nil
  | cons c b ih =>
    obtain ⟨hc, hb⟩ := List.forall_mem_cons.mp hb
    exact .blank hc (ih hb)

/-- A gap before a final gap is a part of it. -/
lemma FinalGap.gap_append {g g' : List Char} (hg : Gap g) (hg' : FinalGap g') : FinalGap (g ++ g') := by
  cases hg' with
  | closed hg' => exact .closed (hg.append hg')
  | unclosed hg' hbody =>
    rw [← List.append_assoc]
    exact .unclosed (hg.append hg') hbody

@[simp]
lemma byteLength_nil : byteLength [] = 0 := rfl

@[simp]
lemma byteLength_cons (c : Char) (s : List Char) : byteLength (c :: s) = c.utf8Size + byteLength s := rfl

@[simp]
lemma byteLength_append (s t : List Char) : byteLength (s ++ t) = byteLength s + byteLength t :=
  Number.sumOf_append _ s t

@[simp]
lemma byteLength_reverse (s : List Char) : byteLength s.reverse = byteLength s := by
  induction s with
  | nil => rfl
  | cons c s ih =>
    rw [List.reverse_cons, byteLength_append, ih]
    simp [Nat.add_comm]

lemma byteLength_pos {s : List Char} (hs : s ≠ []) : 0 < byteLength s := by
  obtain ⟨c, s, rfl⟩ := List.exists_cons_of_ne_nil hs
  exact Nat.add_pos_left c.utf8Size_pos _

namespace Cursor

/-- Skipping goes on in a comment until it is closed. -/
lemma skipTrivia_comment_cons (star : Bool) (position : Nat) (c : Char) (s : List Char) :
    skipTrivia (.comment star) position (c :: s) =
      skipTrivia (if star && c = '/' then .plain else .comment (c = '*')) (position + c.utf8Size) s := by
  rw [skipTrivia, if_neg (by simp)]
  rfl

lemma skipTrivia_opening (position : Nat) (s : List Char) :
    skipTrivia .plain position ('/' :: '*' :: s) = skipTrivia (.comment false) (position + 2) s := by
  rw [skipTrivia, if_neg (by simp [opensComment]), skipTrivia, if_neg (by simp [Mode.step, opensComment])]
  rfl

/-- A comment that is closed is skipped. -/
lemma skipTrivia_comment {body : List Char} (hbody : ¬ ['*', '/'] <:+: body) {star : Bool}
    (hstar : star = true → body.head? ≠ some '/') (position : Nat) (r : List Char) :
    skipTrivia (.comment star) position (body ++ '*' :: '/' :: r) =
      skipTrivia .plain (position + byteLength body + 2) r := by
  induction body generalizing star position with
  | nil =>
    rw [List.nil_append, skipTrivia_comment_cons, if_neg (by simp), skipTrivia_comment_cons]
    rfl
  | cons c body ih =>
    obtain ⟨hopen, hrest, hnext⟩ := comment_continues hbody hstar
    rw [List.cons_append, skipTrivia_comment_cons, hopen, if_neg (by decide), ih hrest hnext, byteLength_cons,
      Nat.add_assoc position]

/-- A comment that is not closed is skipped to the end of the text. -/
lemma skipTrivia_openComment {body : List Char} (hbody : ¬ ['*', '/'] <:+: body) {star : Bool}
    (hstar : star = true → body.head? ≠ some '/') (position : Nat) :
    skipTrivia (.comment star) position body = ⟨position + byteLength body, []⟩ := by
  induction body generalizing star position with
  | nil => rfl
  | cons c body ih =>
    obtain ⟨hopen, hrest, hnext⟩ := comment_continues hbody hstar
    rw [skipTrivia_comment_cons, hopen, if_neg (by decide), ih hrest hnext, byteLength_cons,
      Nat.add_assoc position]

/-- White space is skipped. -/
lemma skipTrivia_blank {c : Char} (hc : isAsciiBlank c = true) (position : Nat) (s : List Char) :
    skipTrivia .plain position (c :: s) = skipTrivia .plain (position + c.utf8Size) s := by
  have hplain : c ≠ '\'' ∧ c ≠ '/' := by
    constructor
    · rintro rfl
      cases hc
    · rintro rfl
      cases hc
  rw [skipTrivia, if_neg (by simp [hc]), step_plain_of_ne hplain.1 hplain.2]

/-- Skipping from a place on comes through a gap to a statement, or through a final gap to the end of the text. -/
def Skips (position : Nat) (s : List Char) : Prop :=
  (∃ g r, s = g ++ r ∧ r ≠ [] ∧ Gap g ∧ skipTrivia .plain position s = ⟨position + byteLength g, r⟩) ∨
    (FinalGap s ∧ skipTrivia .plain position s = ⟨position + byteLength s, []⟩)

/-- Skipping comes through a gap first. -/
lemma Skips.gap_append {position : Nat} {g s : List Char} (hg : Gap g)
    (hskip : skipTrivia .plain position (g ++ s) = skipTrivia .plain (position + byteLength g) s)
    (h : Skips (position + byteLength g) s) : Skips position (g ++ s) := by
  obtain ⟨g', r, rfl, hr, hg', hskip'⟩ | ⟨hg', hskip'⟩ := h
  · refine .inl ⟨g ++ g', r, (List.append_assoc g g' r).symm, hr, hg.append hg', ?_⟩
    rw [hskip, hskip', byteLength_append, Nat.add_assoc]
  · refine .inr ⟨hg'.gap_append hg, ?_⟩
    rw [hskip, hskip', byteLength_append, Nat.add_assoc]

/-- Skipping comes through a gap, wherever it starts. -/
lemma skips (position : Nat) (s : List Char) : Skips position s := by
  generalize hn : s.length = n
  induction n using Nat.strong_induction_on generalizing s position with
  | _ n ih =>
    subst hn
    cases s with
    | nil => exact .inr ⟨.closed .nil, rfl⟩
    | cons c t =>
      by_cases hblank : isAsciiBlank c = true
      · refine Skips.gap_append (g := [c]) (.blank (isBlank_of_isAsciiBlank hblank) .nil) ?_
          (ih _ (Nat.lt_succ_self _) _ t rfl)
        exact skipTrivia_blank hblank position t
      · cases hopens : opensComment c t with
        | false =>
          refine .inl ⟨[], c :: t, rfl, by simp, .nil, ?_⟩
          rw [skipTrivia, if_pos (by simp [hblank, hopens])]
          rfl
        | true =>
          simp only [opensComment, Bool.and_eq_true, decide_eq_true_eq] at hopens
          obtain ⟨rfl, hstar⟩ := hopens
          obtain ⟨t, rfl⟩ := List.head?_eq_some_iff.mp hstar
          obtain ⟨body, r, rfl, hbody⟩ | hbody := comment_cases t
          · have hsplit : '/' :: '*' :: (body ++ '*' :: '/' :: r) = '/' :: '*' :: (body ++ ['*', '/']) ++ r := by simp
            have hsize : byteLength ('/' :: '*' :: (body ++ ['*', '/'])) = 2 + byteLength body + 2 := by
              rw [byteLength_cons, byteLength_cons, byteLength_append, ← Nat.add_assoc, ← Nat.add_assoc]
              rfl
            rw [hsplit]
            refine .gap_append (.comment hbody .nil) ?_ (ih _ (by simp; omega) _ r rfl)
            rw [← hsplit, skipTrivia_opening, skipTrivia_comment hbody (by simp), hsize, Nat.add_assoc position,
              Nat.add_assoc position]
          · refine .inr ⟨.unclosed .nil hbody, ?_⟩
            rw [skipTrivia_opening, skipTrivia_openComment hbody (by simp), byteLength_cons, byteLength_cons,
              ← Nat.add_assoc, ← Nat.add_assoc]
            rfl

end Cursor

/-! ## Statements -/

/-- A line that opens an instance: blanks, a hash, digits, blanks and an equals sign. -/
inductive InstanceLine : List Char → Prop where
  | intro {indent digits gap r} (hindent : ∀ c ∈ indent, isIndent c = true) (hne : digits ≠ [])
      (hdigits : ∀ c ∈ digits, c.isDigit = true) (hgap : ∀ c ∈ gap, isGap c = true) :
      InstanceLine (indent ++ '#' :: (digits ++ (gap ++ '=' :: r)))

/-- A line that is taken for the start of an instance has the form of one. -/
lemma instanceLine_of_opensInstance {line : List Char} (h : opensInstance line = true) : InstanceLine line := by
  induction line with
  | nil => cases h
  | cons c s ih =>
    cases hindent : isIndent c with
    | true =>
      rw [opensInstance_indent hindent] at h
      obtain ⟨hrest, hne, hdigits, hgap⟩ := ih h
      exact .intro (List.forall_mem_cons.mpr ⟨hindent, hrest⟩) hne hdigits hgap
    | false =>
      by_cases hc : c = '#'
      · subst hc
        rw [opensInstance_hash, Option.any_eq_true] at h
        obtain ⟨⟨digits, r⟩, hrun, hequals⟩ := h
        obtain ⟨⟨hne, hdigits⟩, rfl, -⟩ := run?_eq_some_iff.mp hrun
        obtain ⟨r', hr'⟩ := List.head?_eq_some_iff.mp (beq_iff_eq.mp hequals)
        have hgap : r = r.takeWhile isGap ++ '=' :: r' := by
          rw [← hr', List.takeWhile_append_dropWhile]
        rw [hgap]
        have hnone : ∀ c ∈ ([] : List Char), isIndent c = true := fun c hc => absurd hc List.not_mem_nil
        exact .intro hnone hne hdigits fun c hc => List.mem_takeWhile_imp hc
      · rw [opensInstance_of_ne hindent hc] at h
        cases h

/-- How a statement ends, and what follows it. -/
inductive Statement.EndsBefore : Statement → List Char → Prop where
  | semicolon {offset body cs after} (houtside : Outside (body ++ [';']) (cs ++ [';'])) (hcs : ';' ∉ cs) :
      EndsBefore ⟨offset, body ++ [';'], true⟩ after
  | newInstance {offset text cs b line} (houtside : Outside text cs) (hcs : ';' ∉ cs) (hb : Blanks b)
      (hline : InstanceLine line) : EndsBefore ⟨offset, text, false⟩ (b ++ '\n' :: line)
  | endOfFile {offset text cs b} (houtside : Outside text cs) (hcs : ';' ∉ cs) (hb : Blanks b) :
      EndsBefore ⟨offset, text, false⟩ b

/-- A text from a byte offset on is made of gaps and some statements in turn. -/
inductive Tiled : Nat → List Char → List Statement → Prop where
  | done {position g} (hg : FinalGap g) : Tiled position g []
  | statement {position g st after sts} (hg : Gap g) (hoffset : st.offset = position + byteLength g)
      (hends : st.EndsBefore after) (hafter : Tiled (st.offset + byteLength st.text) after sts) :
      Tiled position (g ++ (st.text ++ after)) (st :: sts)

/-- Cutting from a place on to the end of the text gives some statements and ends at a place. -/
inductive Cursor.Scans : Cursor → List Statement → Cursor → Prop where
  | done {here} (h : here.next? = none) : Scans here [] (skipTrivia .plain here.position here.rest)
  | next {here st there sts last} (h : here.next? = some (st, there)) (hs : Scans there sts last) :
      Scans here (st :: sts) last

/-- What one statement takes from a text: a gap before it, its own text, and white space after it. -/
structure Cursor.Yields (here : Cursor) (st : Statement) (there : Cursor) (g b : List Char) : Prop where
  rest : here.rest = g ++ (st.text ++ (b ++ there.rest))
  gap : Gap g
  blanks : Blanks b
  offset : st.offset = here.position + byteLength g
  position : there.position = st.offset + byteLength (st.text ++ b)
  progress : st.offset < there.position
  ends : st.EndsBefore (b ++ there.rest)

/-- Without a semicolon the text up to the end of the statement is trimmed. -/
lemma exists_trimmed {t : List Char} (houtside : ';' ∉ outsideOf .plain t) :
    ∃ b cs, Blanks b ∧ t = trimEnd t ++ b ∧ Outside (trimEnd t) cs ∧ ';' ∉ cs := by
  obtain ⟨b, hb, ht⟩ := exists_trimEnd t
  refine ⟨b, outsideOf .plain (trimEnd t), hb, ht, outside_iff.mpr rfl, fun h => houtside ?_⟩
  have hhead : b.head? ≠ some '*' := by
    intro hstar
    exact absurd (hb '*' (List.mem_of_head? hstar)) (by decide)
  rw [ht]
  exact (outsideOf_begin .plain (trimEnd t) hhead).subset h

namespace Cursor

variable {position : Nat} {t r cs : List Char}

/-- A text up to its first semicolon is a statement. -/
lemma yields_semicolon (houtside : outsideOf .plain (t ++ [';']) = cs ++ [';']) (hcs : ';' ∉ cs) :
    Yields ⟨position, t ++ ';' :: r⟩ ⟨position, t ++ [';'], true⟩ ⟨position + byteLength (t ++ [';']), r⟩ [] [] := by
  constructor
  case rest => simp
  case gap => exact .nil
  case blanks => exact blanks_nil
  case offset => rfl
  case position => rw [List.append_nil]
  case progress => exact Nat.lt_add_of_pos_right (byteLength_pos (by simp))
  case ends => exact .semicolon (outside_iff.mpr houtside) hcs

/-- A text up to the line of an instance is a statement that is not terminated. -/
lemma exists_yields_newInstance (houtside : ';' ∉ outsideOf .plain t) (hline : InstanceLine r) :
    ∃ b, Yields ⟨position, t ++ '\n' :: r⟩ ⟨position, trimEnd t, false⟩ ⟨position + byteLength t + 1, r⟩ [] b := by
  obtain ⟨b, cs, hb, ht, htrimmed, hcs⟩ := exists_trimmed houtside
  have hsize : byteLength t = byteLength (trimEnd t) + byteLength b := by
    rw [← byteLength_append, ← ht]
  refine ⟨b ++ ['\n'], ?_⟩
  constructor
  case rest =>
    rw [List.append_assoc, List.nil_append, ← List.append_assoc (trimEnd t), ← ht]
    rfl
  case gap => exact .nil
  case blanks => exact hb.append (by simp [Blanks, isBlank])
  case offset => rfl
  case position =>
    rw [hsize, byteLength_append, byteLength_append, ← Nat.add_assoc, ← Nat.add_assoc]
    rfl
  case progress => exact Nat.lt_succ_of_le (Nat.le_add_right _ _)
  case ends =>
    rw [List.append_assoc]
    exact .newInstance htrimmed hcs hb hline

/-- The rest of a text without a semicolon is a statement that is not terminated. -/
lemma exists_yields_endOfFile (hne : t ≠ []) (houtside : ';' ∉ outsideOf .plain t) :
    ∃ b, Yields ⟨position, t⟩ ⟨position, trimEnd t, false⟩ ⟨position + byteLength t, []⟩ [] b := by
  obtain ⟨b, cs, hb, ht, htrimmed, hcs⟩ := exists_trimmed houtside
  refine ⟨b, ?_⟩
  constructor
  case rest => exact ht.trans (by simp)
  case gap => exact .nil
  case blanks => exact hb
  case offset => rfl
  case position => rw [← ht]
  case progress => exact Nat.lt_add_of_pos_right (byteLength_pos hne)
  case ends =>
    rw [List.append_nil]
    exact .endOfFile htrimmed hcs hb

end Cursor

/-- What is cut at a place is a statement of one of these three kinds. -/
lemma Cursor.exists_yields_statementHere {here : Cursor} (hne : here.rest ≠ []) :
    ∃ b, here.Yields here.statementHere.1 here.statementHere.2 [] b := by
  obtain ⟨position, s⟩ := here
  unfold statementHere
  simp only at hne ⊢
  obtain ⟨t, r, cs, rfl, hcut, houtside, hcs⟩ | ⟨t, r, rfl, hopens, hcut, houtside⟩ | ⟨hcut, houtside⟩ :=
    cut_cases .plain [] s
  · rw [hcut]
    refine ⟨[], ?_⟩
    simp only [List.append_nil, List.reverse_cons, List.reverse_reverse]
    have hsize : byteLength (';' :: t.reverse) = byteLength (t ++ [';']) := by simp [Nat.add_comm]
    rw [hsize]
    exact yields_semicolon houtside hcs
  · rw [hcut]
    simp only [List.append_nil, List.reverse_reverse, byteLength_reverse]
    exact exists_yields_newInstance houtside (instanceLine_of_opensInstance hopens)
  · rw [hcut]
    simp only [List.append_nil, List.reverse_reverse, byteLength_reverse]
    exact exists_yields_endOfFile hne houtside

/-- The next statement stands after a gap; without one there is only a final gap left. -/
lemma Cursor.next?_cases (here : Cursor) :
    (here.next? = none ∧ FinalGap here.rest ∧
      skipTrivia .plain here.position here.rest = ⟨here.finish, []⟩) ∨
    ∃ st there g b, here.next? = some (st, there) ∧ here.Yields st there g b := by
  unfold next?
  obtain ⟨g, r, hrest, hr, hg, hskip⟩ | ⟨hg, hskip⟩ := skips here.position here.rest
  · right
    rw [hskip]
    obtain ⟨b, hyields⟩ : ∃ b, Yields ⟨here.position + byteLength g, r⟩ _ _ [] b := exists_yields_statementHere hr
    refine ⟨_, _, g, b, if_neg hr, ?_⟩
    refine ⟨?_, hg, hyields.blanks, hyields.offset, hyields.position, hyields.progress, hyields.ends⟩
    rw [hrest]
    exact congrArg (g ++ ·) hyields.rest
  · left
    rw [hskip]
    exact ⟨if_pos rfl, hg, rfl⟩

/-- A gap may be put before a text. -/
lemma Tiled.gap_append {position : Nat} {b s : List Char} {sts : List Statement} (hb : Gap b)
    (h : Tiled (position + byteLength b) s sts) : Tiled position (b ++ s) sts := by
  cases h with
  | done hg => exact .done (hg.gap_append hb)
  | @statement _ g st after sts hg hoffset hends hafter =>
    rw [← List.append_assoc]
    refine .statement (hb.append hg) ?_ hends hafter
    rw [hoffset, byteLength_append, Nat.add_assoc]

/-- Cutting from a place on: it comes to the end of the text, no statement begins before the place, each begins
after the one before it, and the statements and gaps are the text. -/
lemma Cursor.scans_statements (here : Cursor) :
    Scans here (here.statements.map (·.1)) ⟨here.finish, []⟩ ∧
    (∀ st ∈ here.statements.map (·.1), here.position ≤ st.offset) ∧
    (here.statements.map (·.1)).Pairwise (fun st st' => st.offset < st'.offset) ∧
    Tiled here.position here.rest (here.statements.map (·.1)) := by
  generalize hn : here.rest.length = n
  induction n using Nat.strong_induction_on generalizing here with
  | _ n ih =>
    subst hn
    obtain ⟨hnone, hgap, hskip⟩ | ⟨st, there, g, b, hnext, hyields⟩ := here.next?_cases
    · rw [statements_of_next?_none hnone, ← hskip]
      exact ⟨.done hnone, fun st hst => absurd hst List.not_mem_nil, .nil, .done hgap⟩
    · obtain ⟨hscans, hfrom, hincreasing, htiled⟩ := ih _ (length_of_next? hnext) there rfl
      have hfinish : there.finish = here.finish := by
        rw [finish, finish, hyields.rest, hyields.position, hyields.offset]
        simp only [byteLength_append, Nat.add_assoc]
      have hstart : here.position ≤ st.offset := hyields.offset ▸ Nat.le_add_right _ _
      rw [statements_of_next? hnext, List.map_cons]
      refine ⟨.next hnext (hfinish ▸ hscans), ?_, ?_, ?_⟩
      · refine List.forall_mem_cons.mpr ⟨hstart, fun st' hst' => ?_⟩
        exact (hstart.trans hyields.progress.le).trans (hfrom st' hst')
      · refine List.pairwise_cons.mpr ⟨fun st' hst' => ?_, hincreasing⟩
        exact hyields.progress.trans_le (hfrom st' hst')
      · rw [hyields.rest]
        refine .statement hyields.gap hyields.offset hyields.ends (.gap_append hyields.blanks.gap ?_)
        rwa [Nat.add_assoc, ← byteLength_append, ← hyields.position]

namespace Tiled

variable {position : Nat} {s : List Char} {sts : List Statement} {st : Statement}

/-- Statements lie behind the place where their text starts. -/
lemma le_offset (h : Tiled position s sts) (hst : st ∈ sts) : position ≤ st.offset := by
  induction h with
  | done _ => cases hst
  | statement hg hoffset hends hafter ih =>
    rcases List.mem_cons.mp hst with rfl | hst
    · exact hoffset ▸ Nat.le_add_right _ _
    · exact (hoffset ▸ Nat.le_add_right _ _ : _ ≤ _).trans ((Nat.le_add_right _ _).trans (ih hst))

/-- Each statement is the piece of the text at its offset. -/
lemma slice (h : Tiled position s sts) (hst : st ∈ sts) :
    ∃ before after, s = before ++ (st.text ++ after) ∧ st.offset = position + byteLength before ∧
      st.EndsBefore after := by
  induction h with
  | done _ => cases hst
  | @statement position g st' after sts hg hoffset hends hafter ih =>
    rcases List.mem_cons.mp hst with rfl | hst
    · exact ⟨g, after, rfl, hoffset, hends⟩
    · obtain ⟨before, after', rfl, hoffset', hends'⟩ := ih hst
      refine ⟨g ++ (st'.text ++ before), after', by simp, ?_, hends'⟩
      rw [hoffset', hoffset]
      simp only [byteLength_append, Nat.add_assoc]

/-- No statement reaches into a later one. -/
lemma disjoint (h : Tiled position s sts) :
    sts.Pairwise fun st st' => st.offset + byteLength st.text ≤ st'.offset := by
  induction h with
  | done _ => exact .nil
  | statement hg hoffset hends hafter ih =>
    exact List.pairwise_cons.mpr ⟨fun st' hst' => hafter.le_offset hst', ih⟩

end Tiled

/-- Cutting a text into statements partitions it. It ends at the end of the text; the statements have increasing
offsets, are the pieces of the text at their offsets and do not overlap; and between them there is nothing but white
space and comments. -/
theorem statements_partition (text : List Char) :
    Cursor.Scans (.start text) (statements text) ⟨byteLength text, []⟩ ∧
    (statements text).Pairwise (fun st st' => st.offset < st'.offset) ∧
    (∀ st ∈ statements text, ∃ before after, text = before ++ (st.text ++ after) ∧
      st.offset = byteLength before ∧ st.EndsBefore after) ∧
    (statements text).Pairwise (fun st st' => st.offset + byteLength st.text ≤ st'.offset) ∧
    Tiled 0 text (statements text) := by
  obtain ⟨hscans, -, hincreasing, htiled⟩ := (Cursor.start text).scans_statements
  have hfinish : (Cursor.start text).finish = byteLength text := Nat.zero_add _
  refine ⟨hfinish ▸ hscans, hincreasing, fun st hst => ?_, htiled.disjoint, htiled⟩
  obtain ⟨before, after, htext, hoffset, hends⟩ := htiled.slice hst
  exact ⟨before, after, htext, hoffset.trans (Nat.zero_add _), hends⟩

end BuildingModel.Exchange
