import BuildingModel.Proofs.Exchange.ValueText

/-!
# What is read is in the grammar

The converse of reading back: whatever the readers accept is a text of the grammar, and what they leave is
what follows this text. Together with `InstanceText.read` this makes the grammar exact:
`instanceOf_eq_ok_iff` says that a text is read as an instance exactly if it is a text of this instance.
-/

namespace BuildingModel.Exchange

open Text Number

/-! ## Numbers -/

/-- A run of digits is found as such. -/
lemma digits_of_run? {s w r : List Char} (h : run? Char.isDigit s = some (w, r)) :
    ∃ ds : Digits, ds.chars = w ∧ s = ds.chars ++ r := by
  obtain ⟨⟨hne, hw⟩, hs, -⟩ := run?_eq_some_iff.mp h
  exact ⟨⟨w, hne, hw⟩, rfl, hs⟩

/-- What is read as a power of ten is the text of one, or nothing. -/
lemma power_sound (s : List Char) :
    ∃ p : Option PowerText, s = (p.map PowerText.chars).getD [] ++ (power s).2 ∧
      (power s).1 = (p.map PowerText.value).getD 0 := by
  cases s with
  | nil => exact ⟨none, rfl, rfl⟩
  | cons c s =>
    rw [power]
    split
    · rename_i hmark
      obtain ⟨g, hsign, hnegative⟩ := Sign.exists_eq s
      cases hrun : run? Char.isDigit (sign s).2 with
      | none => exact ⟨none, by simp [hrun], by simp [hrun]⟩
      | some found =>
        obtain ⟨w, r⟩ := found
        obtain ⟨ds, rfl, hds⟩ := digits_of_run? hrun
        refine ⟨some ⟨c, hmark, g, ds⟩, ?_, ?_⟩
        · simp only [hrun, Option.map_some, Option.getD_some, PowerText.chars, List.cons_append,
            List.append_assoc]
          rw [← hds, ← hsign]
        · simp only [hrun, hnegative]
          rfl
    · exact ⟨none, rfl, rfl⟩

/-- What is read as a real number is the text of one. -/
lemma real?_sound {s r : List Char} {v : Value} (h : real? s = some (v, r)) :
    ∃ t : RealText, v = .real t.decimal.toFloat ∧ s = t.chars ++ r := by
  obtain ⟨g, hsign, hnegative⟩ := Sign.exists_eq s
  rw [real?] at h
  simp only at h
  split at h
  · rename_i whole s₂ hrun
    obtain ⟨ds, rfl, hds⟩ := digits_of_run? hrun
    obtain ⟨p, hp, hpower⟩ := power_sound (s₂.dropWhile Char.isDigit)
    cases h
    refine ⟨⟨g, ds, s₂.takeWhile Char.isDigit, fun c hc => List.mem_takeWhile_imp hc, p⟩, ?_, ?_⟩
    · simp only [RealText.decimal, RealText.powerValue, hnegative, hpower]
    · simp only [RealText.chars, RealText.powerChars, List.append_assoc, List.cons_append]
      rw [← hp, List.takeWhile_append_dropWhile, ← hds, ← hsign]
  · cases h

/-- What is read as an integer is the text of one. -/
lemma integer?_sound {s r : List Char} {v : Value} (h : integer? s = some (v, r)) :
    ∃ t, SimpleText v t ∧ s = t ++ r := by
  obtain ⟨g, hsign, hnegative⟩ := Sign.exists_eq s
  rw [integer?] at h
  simp only at h
  split at h
  · rename_i w r' hrun
    obtain ⟨ds, rfl, hds⟩ := digits_of_run? hrun
    split at h
    · rename_i hfits
      cases h
      refine ⟨g.chars ++ ds.chars, .integer g ds ?_, ?_⟩
      · rw [← hnegative]
        exact (Int64.toInt_ofInt_of_le hfits.1 (Int.lt_add_one_of_le hfits.2)).symm
      · rw [List.append_assoc, ← hds, ← hsign]
    · cases h
  · cases h

/-- What is read as the number of an entity is the text of one. -/
lemma entityId?_sound {s r : List Char} {id : EntityId} (h : entityId? s = some (id, r)) :
    ∃ ds : Digits, digitsValue ds.chars = id.toNat ∧ s = ds.chars ++ r := by
  rw [entityId?] at h
  split at h
  · rename_i w r' hrun
    obtain ⟨ds, rfl, hds⟩ := digits_of_run? hrun
    split at h
    · rename_i hfits
      cases h
      exact ⟨ds, (UInt64.toNat_ofNat_of_lt' hfits).symm, hds⟩
    · cases h
  · cases h

/-! ## Simple values -/

/-- What stands between quotes has each quote doubled. -/
lemma quoted?_sound {q : Char} {s t r : List Char} (h : quoted? q s = some (t, r)) :
    ∃ u, t = doubled q u ∧ s = doubled q u ++ q :: r := by
  fun_induction quoted? q s generalizing t with
  | case1 => cases h
  | case2 =>
    cases h
    exact ⟨[], rfl, rfl⟩
  | case3 => cases h
  | case4 s ih =>
    simp only [Option.map_eq_some_iff, Prod.mk.injEq] at h
    obtain ⟨⟨t', r'⟩, h', rfl, rfl⟩ := h
    obtain ⟨u, rfl, rfl⟩ := ih h'
    exact ⟨q :: u, (doubled_cons_self q u).symm, by rw [doubled_cons_self]; rfl⟩
  | case5 d s hd =>
    cases h
    exact ⟨[], rfl, rfl⟩
  | case6 c d s hc ih =>
    simp only [Option.map_eq_some_iff, Prod.mk.injEq] at h
    obtain ⟨⟨t', r'⟩, h', rfl, rfl⟩ := h
    obtain ⟨u, rfl, hu⟩ := ih h'
    exact ⟨c :: u, (doubled_cons_of_ne hc u).symm, by rw [doubled_cons_of_ne hc, hu]; rfl⟩

/-- What is read as a reference is the text of one. -/
lemma ref?_sound {s r : List Char} {v : Value} (h : ref? s = some (v, r)) :
    ∃ t, SimpleText v t ∧ s = t ++ r := by
  rw [ref?.eq_def] at h
  split at h
  · rename_i s'
    simp only [Option.map_eq_some_iff, Prod.mk.injEq] at h
    obtain ⟨⟨id, r'⟩, hid, rfl, rfl⟩ := h
    obtain ⟨ds, hvalue, rfl⟩ := entityId?_sound hid
    exact ⟨_, .ref ds hvalue, rfl⟩
  · cases h

/-- What is read as a string is the text of one, in either kind of quotes. -/
lemma string?_sound {s r : List Char} {v : Value} (h : string? s = some (v, r)) :
    ∃ t, SimpleText v t ∧ s = t ++ r := by
  rw [string?.eq_def] at h
  split at h
  · simp only [Option.map_eq_some_iff, Prod.mk.injEq] at h
    obtain ⟨⟨t, r'⟩, hquoted, rfl, rfl⟩ := h
    obtain ⟨u, rfl, rfl⟩ := quoted?_sound hquoted
    rw [collapse_doubled]
    exact ⟨_, .text u, by simp⟩
  · simp only [Option.map_eq_some_iff, Prod.mk.injEq] at h
    obtain ⟨⟨t, r'⟩, hquoted, rfl, rfl⟩ := h
    obtain ⟨u, rfl, rfl⟩ := quoted?_sound hquoted
    exact ⟨_, .binary u, by simp⟩
  · cases h

/-- What is read as an enumeration is the text of one. -/
lemma enum?_sound {s r : List Char} {v : Value} (h : enum? s = some (v, r)) :
    ∃ t, SimpleText v t ∧ s = t ++ r := by
  rw [enum?.eq_def] at h
  split at h
  · split at h
    · rename_i w r' hrun
      obtain ⟨⟨hne, hw⟩, rfl, -⟩ := run?_eq_some_iff.mp hrun
      cases h
      exact ⟨_, .enum hne hw, by simp⟩
    · cases h
  · cases h

/-- What is read as a value that is left out is the text of one. -/
lemma blank?_sound {s r : List Char} {v : Value} (h : blank? s = some (v, r)) :
    ∃ t, SimpleText v t ∧ s = t ++ r := by
  rw [blank?.eq_def] at h
  split at h
  · cases h
    exact ⟨_, .omitted, rfl⟩
  · cases h
    exact ⟨_, .derived, rfl⟩
  · cases h

/-- What is read as a simple value is a text of this value. -/
theorem simple?_sound {s r : List Char} {v : Value} (h : simple? s = some (v, r)) :
    ∃ t, SimpleText v t ∧ s = t ++ r := by
  simp only [simple?, Option.or_eq_some_iff] at h
  rcases h with h | ⟨_, h | ⟨_, h | ⟨_, h | ⟨_, h | ⟨_, h⟩⟩⟩⟩⟩
  · obtain ⟨t, rfl, hs⟩ := real?_sound h
    exact ⟨_, .real t, hs⟩
  · exact integer?_sound h
  · exact ref?_sound h
  · exact string?_sound h
  · exact enum?_sound h
  · exact blank?_sound h

/-! ## Lists -/

/-- Skipping white space leaves the rest. -/
lemma exists_blanks (s : List Char) : ∃ b, Blanks b ∧ s = b ++ skipBlanks s :=
  ⟨s.takeWhile isBlank, fun _ hc => List.mem_takeWhile_imp hc, List.takeWhile_append_dropWhile.symm⟩

/-- White space after white space is white space. -/
lemma Blanks.append {b b' : List Char} (hb : Blanks b) (hb' : Blanks b') : Blanks (b ++ b') := by
  intro c hc
  rcases List.mem_append.mp hc with hc | hc
  · exact hb c hc
  · exact hb' c hc

/-- White space after a value belongs to its text. -/
lemma ValueText.append_blanks {v : Value} {t b : List Char} (ht : ValueText v t) (hb : Blanks b) :
    ValueText v (t ++ b) := by
  cases ht with
  | simple ht hb₀ hb' =>
    simp only [List.append_assoc]
    exact .simple ht hb₀ (hb'.append hb)
  | list ht hb₀ hb' =>
    simp only [List.append_assoc]
    exact .list ht hb₀ (hb'.append hb)
  | typed hn ht hb₀ hb' =>
    simp only [List.append_assoc]
    exact .typed hn ht hb₀ (hb'.append hb)

/-- White space at the end belongs to the last value. -/
lemma ItemsText.append_blanks {vs : List Value} {t b : List Char} (ht : ItemsText vs t) (hb : Blanks b) :
    ItemsText vs (t ++ b) := by
  cases ht with
  | last ht => exact .last (ht.append_blanks hb)
  | more ht ht' =>
    rw [List.append_assoc, List.cons_append]
    exact .more ht (ht'.append_blanks hb)

/-- A value is never read from nothing. -/
lemma length_of_readValue? {s r : List Char} {v : Value} (h : readValue? s = some (v, r)) :
    r.length < s.length := by
  simp only [readValue?, Option.map_eq_some_iff, Prod.mk.injEq] at h
  obtain ⟨⟨v', r', hr'⟩, -, -, rfl⟩ := h
  exact hr'

/-- A comma without a value after it is left. -/
lemma readMoreItems_comma_none {s : List Char} (hs : readValue? s = none) :
    readMoreItems (',' :: s) = ([], ',' :: s) := by
  rw [readValue?, Option.map_eq_none_iff] at hs
  rw [readMoreItems, moreItems.eq_def]
  simp only [hs]

/-- A text that does not begin with a character stops before it. -/
lemma stops_of_not_exists {c : Char} {s : List Char} (h : ¬ ∃ s', s = c :: s') : Stops (· == c) s := by
  intro d hd
  rw [beq_eq_false_iff_ne]
  rintro rfl
  cases s with
  | nil => cases hd
  | cons d s =>
    cases hd
    exact h ⟨s, rfl⟩

-- The induction is that of the readers: it goes down with the length of the text.
mutual
/-- What is read as a value is a text of this value. -/
theorem readValue?_sound {s r : List Char} {v : Value} (h : readValue? s = some (v, r)) :
    ∃ t, ValueText v t ∧ s = t ++ r := by
  obtain ⟨b, hb, hs⟩ := exists_blanks s
  have hle := length_skipBlanks_le s
  rw [readValue?_eq] at h
  split at h
  · rename_i r₁ hsimple
    cases h
    obtain ⟨t, ht, ht'⟩ := simple?_sound hsimple
    obtain ⟨b', hb', hr⟩ := exists_blanks r₁
    refine ⟨_, .simple ht hb hb', ?_⟩
    simp only [List.append_assoc]
    rw [← hr, ← ht', ← hs]
  · rename_i hsimple
    split at h
    · rename_i vs r₁ hlist
      cases h
      obtain ⟨t, ht, ht'⟩ := parameterList_sound hlist
      obtain ⟨b', hb', hr⟩ := exists_blanks r₁
      refine ⟨_, .list ht hb hb', ?_⟩
      simp only [List.append_assoc]
      rw [← hr, ← ht', ← hs]
    · split at h
      · rename_i name r₁ hrun
        split at h
        · rename_i args r₂ hlist
          cases h
          have hlt := length_of_run? hrun
          obtain ⟨t, ht, ht'⟩ := parameterList_sound hlist
          obtain ⟨b', hb', hr⟩ := exists_blanks r₂
          obtain ⟨⟨hne, hname⟩, hword, -⟩ := run?_eq_some_iff.mp hrun
          have hinteger : integer? name = none := by
            obtain ⟨t', rfl⟩ := ht.eq_cons
            rw [hword, ht', List.cons_append] at hsimple
            simp only [simple?, Option.or_eq_none_iff] at hsimple
            have := hsimple.2.1
            rwa [integer?_append_bracket, Option.map_eq_none_iff] at this
          refine ⟨_, .typed ⟨hne, hname, hinteger⟩ ht hb hb', ?_⟩
          simp only [List.append_assoc]
          rw [← hr, ← ht', ← hword, ← hs]
        · cases h
      · cases h
termination_by 3 * s.length + 1
decreasing_by all_goals omega

/-- What is read as a parameter list is the text of one. -/
theorem parameterList_sound {s r : List Char} {vs : List Value} (h : parameterList s = .ok (vs, r)) :
    ∃ t, ListText vs t ∧ s = t ++ r := by
  by_cases hbracket : ∃ s', s = '(' :: s'
  · obtain ⟨s', hs'⟩ := hbracket
    have hlt : s'.length < s.length := by rw [hs']; exact Nat.lt_succ_self _
    rw [hs', parameterList_bracket] at h
    split at h
    · rename_i r' hclose
      cases h
      obtain ⟨b, hb, hrest⟩ := exists_blanks (readItems s').2
      rw [hclose] at hrest
      rcases readItems_sound s' with ⟨hvs, hs⟩ | ⟨t, ht, hs⟩
      · rw [hrest] at hs
        rw [hvs]
        exact ⟨_, .nil hb, by rw [hs', hs]; simp⟩
      · rw [hrest] at hs
        exact ⟨_, .items (ht.append_blanks hb), by rw [hs', hs]; simp⟩
    · cases h
  · rw [parameterList_of_stops (stops_of_not_exists hbracket)] at h
    cases h
termination_by 3 * s.length
decreasing_by omega

/-- The items that are read are none, or the text begins with them. -/
theorem readItems_sound (s : List Char) :
    ((readItems s).1 = [] ∧ s = (readItems s).2) ∨
      ∃ t, ItemsText (readItems s).1 t ∧ s = t ++ (readItems s).2 := by
  rw [readItems_eq]
  split
  · rename_i v r₁ hvalue
    have hlt := length_of_readValue? hvalue
    obtain ⟨t, ht, hs⟩ := readValue?_sound hvalue
    rcases readMoreItems_sound r₁ with ⟨hvs, hr⟩ | ⟨t', ht', hr⟩
    · simp only [hvs, ← hr]
      exact .inr ⟨t, .last ht, hs⟩
    · refine .inr ⟨_, .more ht ht', ?_⟩
      rw [List.append_assoc, List.cons_append, ← hr, ← hs]
  · exact .inl ⟨rfl, rfl⟩
termination_by 3 * s.length + 2
decreasing_by all_goals omega

/-- Further items are none, or a comma and the text of items. -/
theorem readMoreItems_sound (s : List Char) :
    ((readMoreItems s).1 = [] ∧ s = (readMoreItems s).2) ∨
      ∃ t, ItemsText (readMoreItems s).1 t ∧ s = ',' :: (t ++ (readMoreItems s).2) := by
  by_cases hcomma : ∃ s', s = ',' :: s'
  · obtain ⟨s', hs'⟩ := hcomma
    have hlt : s'.length < s.length := by rw [hs']; exact Nat.lt_succ_self _
    rw [hs']
    cases hvalue : readValue? s' with
    | none =>
      rw [readMoreItems_comma_none hvalue]
      exact .inl ⟨rfl, rfl⟩
    | some found =>
      have hitems : (readItems s').1 ≠ [] := by
        rw [readItems_eq, hvalue]
        exact List.cons_ne_nil _ _
      rw [readMoreItems_comma (by rw [hvalue]; rfl)]
      rcases readItems_sound s' with ⟨hvs, -⟩ | ⟨t, ht, hs⟩
      · exact absurd hvs hitems
      · exact .inr ⟨t, ht, by rw [← hs]⟩
  · rw [readMoreItems_of_stops (stops_of_not_exists hcomma)]
    exact .inl ⟨rfl, rfl⟩
termination_by 3 * s.length + 2
decreasing_by omega
end

/-! ## Instances -/

/-- Two steps succeed exactly if the first one does and then the second one. -/
lemma bind_eq_ok_iff {ε α β : Type} {x : Except ε α} {f : α → Except ε β} {b : β} :
    (x >>= f) = .ok b ↔ ∃ a, x = .ok a ∧ f a = .ok b := by
  cases x with
  | error e => simp [bind, Except.bind]
  | ok a => simp [bind, Except.bind]

/-- What every step of a loop keeps holds at its end, if it has one. -/
lemma foldlM_invariant {ε α β : Type} {f : β → α → Except ε β} {P : β → Prop} {xs : List α}
    (hstep : ∀ b, ∀ a ∈ xs, ∀ b', P b → f b a = .ok b' → P b') {b b' : β} (hb : P b)
    (h : xs.foldlM f b = .ok b') : P b' := by
  induction xs generalizing b with
  | nil =>
    cases h
    exact hb
  | cons a xs ih =>
    rw [List.foldlM_cons] at h
    obtain ⟨next, hnext, h⟩ := bind_eq_ok_iff.mp h
    exact ih (fun b a ha => hstep b a (List.mem_cons_of_mem _ ha)) (hstep b a List.mem_cons_self next hb hnext) h

/-- If every member gives something, a list gives all of it. -/
lemma mapM_eq_ok {ε α β : Type} {f : α → Except ε β} {xs : List α} {ys : List β}
    (h : List.Forall₂ (fun x y => f x = .ok y) xs ys) : xs.mapM f = .ok ys := by
  induction h with
  | nil => rfl
  | cons hx _ ih =>
    rw [List.mapM_cons, hx, ih]
    rfl

/-- A character is expected exactly at the front. -/
lemma expect_eq_ok_iff {c : Char} {s r : List Char} : expect c s = .ok r ↔ s = c :: r := by
  cases s with
  | nil => simp [expect]
  | cons d s =>
    rw [expect]
    split
    · rename_i hd
      simp [hd]
    · rename_i hd
      simp [hd]

/-- What is read as a keyword is a word, with white space around it. -/
lemma keyword_sound {s w r : List Char} (h : keyword s = .ok (w, r)) :
    (w ≠ [] ∧ ∀ c ∈ w, isKeywordChar c = true) ∧
      ∃ b b', Blanks b ∧ Blanks b' ∧ s = b ++ (w ++ (b' ++ r)) := by
  rw [keyword] at h
  split at h
  · rename_i r₁ hrun
    cases h
    obtain ⟨hw, hword, -⟩ := run?_eq_some_iff.mp hrun
    obtain ⟨b, hb, hs⟩ := exists_blanks s
    obtain ⟨b', hb', hr⟩ := exists_blanks r₁
    exact ⟨hw, b, b', hb, hb', by rw [← hr, ← hword, ← hs]⟩
  · cases h

/-- What is read as the end of a statement is a semicolon, with white space around it. -/
lemma statementEnd_sound {s : List Char} (h : statementEnd s = .ok ()) :
    ∃ b b', Blanks b ∧ Blanks b' ∧ s = b ++ ';' :: b' := by
  rw [statementEnd] at h
  obtain ⟨r, hexpect, hend⟩ := bind_eq_ok_iff.mp h
  obtain ⟨b, hb, hs⟩ := exists_blanks s
  rw [expect_eq_ok_iff.mp hexpect] at hs
  split at hend
  · rename_i hnil
    exact ⟨b, r, hb, List.dropWhile_eq_nil_iff.mp hnil, hs⟩
  · cases hend

/-- What is read as an instance is a text of this instance. -/
theorem instanceOf_sound {t : List Char} {raw : RawInstance} (h : instanceOf t = .ok raw) :
    InstanceText raw t := by
  rw [instanceOf] at h
  obtain ⟨s₁, hhash, h⟩ := bind_eq_ok_iff.mp h
  cases hid : entityId? s₁ with
  | none =>
    rw [hid] at h
    cases h
  | some found =>
    rw [hid] at h
    obtain ⟨⟨id, s₂⟩, hfound, hrest⟩ := bind_eq_ok_iff.mp h
    cases hfound
    obtain ⟨s₃, hequals, h⟩ := bind_eq_ok_iff.mp hrest
    obtain ⟨⟨name, s₄⟩, hname, h⟩ := bind_eq_ok_iff.mp h
    obtain ⟨⟨vs, s₅⟩, hlist, h⟩ := bind_eq_ok_iff.mp h
    obtain ⟨⟨⟩, hend, h⟩ := bind_eq_ok_iff.mp h
    cases h
    obtain ⟨b, hb, ht⟩ := exists_blanks t
    obtain ⟨ds, hvalue, hdigits⟩ := entityId?_sound hid
    obtain ⟨b₁, hb₁, hs₂⟩ := exists_blanks s₂
    obtain ⟨⟨hne, hkey⟩, b₂, b₃, hb₂, hb₃, hs₃⟩ := keyword_sound hname
    obtain ⟨list, htext, hs₄⟩ := parameterList_sound hlist
    obtain ⟨b₄, b₅, hb₄, hb₅, hs₅⟩ := statementEnd_sound hend
    rw [expect_eq_ok_iff.mp hhash, hdigits] at ht
    rw [expect_eq_ok_iff.mp hequals, hs₃, hs₄, hs₅] at hs₂
    rw [ht, hs₂]
    exact .intro ds hvalue hne hkey htext hb hb₁ hb₂ hb₃ hb₄ hb₅

/-- The grammar is exact. -/
theorem instanceOf_eq_ok_iff {t : List Char} {raw : RawInstance} :
    instanceOf t = .ok raw ↔ InstanceText raw t :=
  ⟨instanceOf_sound, InstanceText.read⟩

/-- A statement is read as an instance exactly if it is the text of it. -/
lemma parse_eq_ok_iff {t : List Char} {offset : Nat} {raw : RawInstance} :
    RawInstance.parse t offset = .ok raw ↔ InstanceText raw t := by
  rw [RawInstance.parse, complete, ← instanceOf_eq_ok_iff]
  cases instanceOf t with
  | ok _ => simp [Except.mapError]
  | error _ => simp [Except.mapError]

end BuildingModel.Exchange
