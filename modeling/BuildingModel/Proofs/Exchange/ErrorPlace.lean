import BuildingModel.Proofs.Exchange.Partition
import Mathlib

/-!
# Where reading stops

A reader that fails hands over the text at which it stopped. However many alternatives it has tried and however deep
in nested lists they failed, this text is an end of the statement, as is what it leaves when it goes well (`Keeps`).
So the error of a statement points at a character of it or at its end, and quotes what stands there
(`SyntaxError.PointsInto`). The offset of the statement in its file only shifts the position, as long as it stays
within 64 bits (`parse_errors_located`).
-/

namespace BuildingModel.Exchange

open Text

/-! ## Ends of the text -/

/-- Skipping white space leaves an end of the text. -/
lemma skipBlanks_isSuffix (s : List Char) : skipBlanks s <:+ s := List.dropWhile_suffix _

/-- Whether reading goes well or not, what is left is an end of the text. -/
structure Keeps {β : Type} (s : List Char) (rest : β → List Char) (x : Except (List Char) β) : Prop where
  ok : ∀ b, x = .ok b → rest b <:+ s
  error : ∀ r, x = .error r → r <:+ s

namespace Keeps

variable {β γ : Type} {s t : List Char} {rest : β → List Char} {rest' : γ → List Char}

/-- Reading that goes well and leaves an end keeps to this. -/
lemma of_ok {b : β} (h : rest b <:+ s) : Keeps s rest (.ok b) where
  ok _ heq := by
    cases heq
    exact h
  error _ heq := by cases heq

/-- So does reading that fails at an end. -/
lemma of_error {r : List Char} (h : r <:+ s) : Keeps s rest (.error r) where
  ok _ heq := by cases heq
  error _ heq := by
    cases heq
    exact h

/-- An end of an end is an end. -/
lemma mono {x : Except (List Char) β} (h : Keeps s rest x) (hst : s <:+ t) : Keeps t rest x where
  ok b hb := (h.ok b hb).trans hst
  error r hr := (h.error r hr).trans hst

/-- One reader after another. -/
lemma bind {x : Except (List Char) β} {f : β → Except (List Char) γ} (hx : Keeps s rest x)
    (hf : ∀ b, x = .ok b → Keeps (rest b) rest' (f b)) : Keeps s rest' (x >>= f) := by
  cases x with
  | error r => exact of_error (hx.error r rfl)
  | ok b => exact (hf b rfl).mono (hx.ok b rfl)

end Keeps

/-! ## Readers -/

/-- Expecting a character keeps to it. -/
lemma keeps_expect (c : Char) (s : List Char) : Keeps s id (expect c s) := by
  cases s with
  | nil => exact .of_error (List.suffix_refl _)
  | cons d s =>
    rw [expect]
    split
    · exact .of_ok (List.suffix_cons d s)
    · exact .of_error (List.suffix_refl _)

/-- A run leaves an end of the text. -/
lemma run?_isSuffix {p : Char → Bool} {s w r : List Char} (h : run? p s = some (w, r)) : r <:+ s :=
  ⟨w, (run?_eq_some_iff.mp h).2.1.symm⟩

/-- Reading a keyword keeps to it. -/
lemma keeps_keyword (s : List Char) : Keeps s Prod.snd (keyword s) := by
  rw [keyword]
  split
  · rename_i w r hrun
    exact .of_ok (((skipBlanks_isSuffix r).trans (run?_isSuffix hrun)).trans (skipBlanks_isSuffix s))
  · exact .of_error (skipBlanks_isSuffix s)

/-- What follows the items of a list is an end of it, even if one of them could not be read: then the items end
before it. -/
lemma readItems_isSuffix (s : List Char) : (readItems s).2 <:+ s := by
  rcases readItems_sound s with ⟨-, hs⟩ | ⟨t, -, hs⟩
  · rw [← hs]
  · exact ⟨t, hs.symm⟩

/-- Reading parameters keeps to it. -/
lemma keeps_parameterList (s : List Char) : Keeps s Prod.snd (parameterList s) := by
  by_cases hbracket : ∃ s', s = '(' :: s'
  · obtain ⟨s, rfl⟩ := hbracket
    have hrest : skipBlanks (readItems s).2 <:+ '(' :: s :=
      ((skipBlanks_isSuffix _).trans (readItems_isSuffix s)).trans (List.suffix_cons _ s)
    rw [parameterList_bracket]
    split
    · rename_i r hclose
      rw [hclose] at hrest
      exact .of_ok ((List.suffix_cons _ r).trans hrest)
    · exact .of_error hrest
  · rw [parameterList_of_stops (stops_of_not_exists hbracket)]
    exact .of_error (List.suffix_refl s)

/-- Reading the end of a statement keeps to it. -/
lemma keeps_statementEnd (s : List Char) : Keeps s (fun _ => []) (statementEnd s) := by
  rw [statementEnd]
  refine ((keeps_expect ';' (skipBlanks s)).mono (skipBlanks_isSuffix s)).bind fun r _ => ?_
  split
  · exact .of_ok (List.nil_suffix)
  · exact .of_error (skipBlanks_isSuffix r)

/-- So reading an instance does. -/
lemma keeps_instanceOf (s : List Char) : Keeps s (fun _ => []) (instanceOf s) := by
  rw [instanceOf]
  refine ((keeps_expect '#' (skipBlanks s)).mono (skipBlanks_isSuffix s)).bind fun s₁ _ => ?_
  cases hid : entityId? s₁ with
  | none => exact .of_error (List.suffix_refl s₁)
  | some found =>
    obtain ⟨id, s₂⟩ := found
    obtain ⟨ds, -, hs₁⟩ := entityId?_sound hid
    refine Keeps.mono ?_ ⟨ds.chars, hs₁.symm⟩
    refine ((keeps_expect '=' (skipBlanks s₂)).mono (skipBlanks_isSuffix s₂)).bind fun s₃ _ => ?_
    refine (keeps_keyword s₃).bind fun word _ => ?_
    refine (keeps_parameterList word.2).bind fun list _ => ?_
    exact (keeps_statementEnd list.2).bind fun _ _ => .of_ok (List.suffix_refl [])

/-- So reading a record does. -/
lemma keeps_recordOf (s : List Char) : Keeps s (fun _ => []) (recordOf s) := by
  rw [recordOf]
  refine (keeps_keyword s).bind fun word _ => ?_
  refine (keeps_parameterList word.2).bind fun list _ => ?_
  exact (keeps_statementEnd list.2).bind fun _ _ => .of_ok (List.suffix_refl [])

/-! ## Positions -/

/-- The bytes of a string are those of its characters. -/
lemma utf8ByteSize_ofList (s : List Char) : (String.ofList s).utf8ByteSize = byteLength s := by
  induction s with
  | nil => rfl
  | cons c s ih =>
    rw [byteLength_cons, ← ih, String.utf8ByteSize_ofList, String.utf8ByteSize_ofList, String.utf8Len_cons,
      Nat.add_comm]

namespace SyntaxError

/-- The error points at a character of the statement that stands at byte `offset`, or at its end, and quotes what
stands there. -/
structure PointsInto (e : SyntaxError) (statement : List Char) (offset : Nat) : Prop where
  above : offset ≤ e.position
  below : e.position ≤ offset + byteLength statement
  boundary : String.Pos.Raw.IsValid (String.ofList statement) ⟨e.position - offset⟩
  near : ∃ before rest, statement = before ++ rest ∧ byteLength before = e.position - offset ∧
    e.near = String.ofList (rest.take 16)

/-- The error stands behind what has been read. -/
lemma ofRest_append (before rest : List Char) (offset : Nat) : ofRest (before ++ rest) offset rest =
    ⟨offset + byteLength before, String.ofList (rest.take quotedLength)⟩ := by
  rw [ofRest, byteLength_append, Nat.add_sub_cancel]

/-- The error at an end of a statement points into the statement. -/
lemma pointsInto_ofRest {statement rest : List Char} (hrest : rest <:+ statement) (offset : Nat) :
    (ofRest statement offset rest).PointsInto statement offset := by
  obtain ⟨before, rfl⟩ := hrest
  have hposition : (ofRest (before ++ rest) offset rest).position = offset + byteLength before := by
    rw [ofRest_append]
  have hplace : (ofRest (before ++ rest) offset rest).position - offset = byteLength before := by
    rw [hposition, Nat.add_sub_cancel_left]
  constructor
  case above => omega
  case below =>
    rw [hposition, byteLength_append]
    omega
  case boundary =>
    rw [hplace, String.Pos.Raw.isValid_iff_exists_append]
    refine ⟨String.ofList before, String.ofList rest, String.ofList_append, ?_⟩
    rw [String.Pos.Raw.ext_iff]
    exact (utf8ByteSize_ofList before).symm
  case near => exact ⟨before, rest, rfl, hplace.symm, rfl⟩

/-- The same error in a statement that stands at `other` and not at `offset`. -/
def moved (e : SyntaxError) (offset other : Nat) : SyntaxError :=
  { e with position := e.position - offset + other }

/-- Another offset moves an error by the difference. -/
lemma ofRest_moved {statement rest : List Char} (hrest : rest <:+ statement) (offset other : Nat) :
    ofRest statement other rest = (ofRest statement offset rest).moved offset other := by
  obtain ⟨before, rfl⟩ := hrest
  rw [ofRest_append, ofRest_append, moved, Nat.add_sub_cancel_left, Nat.add_comm other]

end SyntaxError

section Complete

variable {β : Type} {read : List Char → Except (List Char) β}

/-- An error comes from where reading stopped. -/
lemma complete_eq_error_iff {statement : List Char} {offset : Nat} {e : SyntaxError} :
    complete read statement offset = .error e ↔
      ∃ rest, read statement = .error rest ∧ e = .ofRest statement offset rest := by
  rw [complete]
  cases read statement with
  | ok b => simp [Except.mapError]
  | error rest => simp [Except.mapError, eq_comm]

/-- The outcome at another offset differs by the place of its error only. -/
lemma complete_moved (hkeeps : ∀ s, Keeps s (fun _ => []) (read s)) (statement : List Char) (offset other : Nat) :
    complete read statement other = (complete read statement offset).mapError (·.moved offset other) := by
  rw [complete, complete]
  cases hread : read statement with
  | ok b => rfl
  | error rest =>
    exact congrArg Except.error (SyntaxError.ofRest_moved ((hkeeps statement).error rest hread) offset other)

/-- The error of a statement that cannot be read points into it. -/
lemma pointsInto_of_complete (hkeeps : ∀ s, Keeps s (fun _ => []) (read s)) {statement : List Char} {offset : Nat}
    {e : SyntaxError} (he : complete read statement offset = .error e) : e.PointsInto statement offset := by
  obtain ⟨rest, hread, rfl⟩ := complete_eq_error_iff.mp he
  exact SyntaxError.pointsInto_ofRest ((hkeeps statement).error rest hread) offset

/-- If the end of the statement has a place in 64 bits, so has every error in it. -/
lemma inWord?_complete (hkeeps : ∀ s, Keeps s (fun _ => []) (read s)) {statement : List Char} {offset : Nat}
    (hfits : offset + byteLength statement < UInt64.size) :
    inWord? (complete read statement offset) = some (complete read statement offset) := by
  cases hcomplete : complete read statement offset with
  | ok b => rfl
  | error e =>
    have hbelow := (pointsInto_of_complete hkeeps hcomplete).below
    rw [inWord?, if_pos (by omega)]

end Complete

/-! ## Instances and records -/

/-- At every offset of 64 bits at which the whole statement has a place there is an outcome. Its error points into
the statement, and another such offset moves the error by the difference. -/
structure Locates {β : Type} (parseAt? : List Char → UInt64 → Option (Except SyntaxError β))
    (statement : List Char) : Prop where
  answered : ∀ offset : UInt64, offset.toNat + byteLength statement < UInt64.size →
    ∃ outcome, parseAt? statement offset = some outcome
  points : ∀ (offset : UInt64) e, offset.toNat + byteLength statement < UInt64.size →
    parseAt? statement offset = some (.error e) → e.PointsInto statement offset.toNat
  moved : ∀ (offset other : UInt64) outcome, offset.toNat + byteLength statement < UInt64.size →
    other.toNat + byteLength statement < UInt64.size → parseAt? statement offset = some outcome →
    parseAt? statement other = some (outcome.mapError fun e =>
      { e with position := e.position - offset.toNat + other.toNat })

/-- What keeps to the ends of its text locates its errors. -/
lemma locates_inWord? {β : Type} {read : List Char → Except (List Char) β}
    (hkeeps : ∀ s, Keeps s (fun _ => []) (read s)) (statement : List Char) :
    Locates (fun statement offset => inWord? (complete read statement offset.toNat)) statement where
  answered _ hfits := ⟨_, inWord?_complete hkeeps hfits⟩
  points _ _ hfits he := by
    rw [inWord?_complete hkeeps hfits] at he
    exact pointsInto_of_complete hkeeps (Option.some.inj he)
  moved offset other _ hfits hother hout := by
    rw [inWord?_complete hkeeps hfits] at hout
    cases hout
    rw [inWord?_complete hkeeps hother, complete_moved hkeeps statement offset.toNat other.toNat]
    rfl

/-- Whenever a statement cannot be read, as an instance or as a record, the error points into it, and it depends on
the place of the statement in the file by a shift only. -/
theorem parse_errors_located (statement : List Char) :
    Locates RawInstance.parseAt? statement ∧ Locates HeaderRecord.parseAt? statement :=
  ⟨locates_inWord? keeps_instanceOf statement, locates_inWord? keeps_recordOf statement⟩

/-- `#1=X('ß',%);`, with a letter of two bytes before the place where reading stops. -/
def brokenInstance : List Char := ['#', '1', '=', 'X', '(', '\'', 'ß', '\'', ',', '%', ')', ';']

/-- The errors of the broken instance lie where they should, and move with the statement. -/
theorem parse_errors_located_brokenInstance :
    (7 + byteLength brokenInstance < UInt64.size ∧ 40 + byteLength brokenInstance < UInt64.size ∧
      RawInstance.parseAt? brokenInstance 7 = some (.error ⟨16, ",%);"⟩)) ∧
    SyntaxError.PointsInto ⟨16, ",%);"⟩ brokenInstance 7 ∧
    RawInstance.parseAt? brokenInstance 40 = some (.error ⟨49, ",%);"⟩) ∧
    HeaderRecord.parseAt? brokenInstance 7 = some (.error ⟨7, "#1=X('ß',%);"⟩) ∧
    SyntaxError.PointsInto ⟨7, "#1=X('ß',%);"⟩ brokenInstance 7 := by
  have hfits : 7 + byteLength brokenInstance < UInt64.size := by decide
  have hother : 40 + byteLength brokenInstance < UInt64.size := by decide
  have hinstance : RawInstance.parseAt? brokenInstance 7 = some (.error ⟨16, ",%);"⟩) := by cbv
  have hrecord : HeaderRecord.parseAt? brokenInstance 7 = some (.error ⟨7, "#1=X('ß',%);"⟩) := by cbv
  obtain ⟨hlocates, hlocates'⟩ := parse_errors_located brokenInstance
  exact ⟨⟨hfits, hother, hinstance⟩, hlocates.points 7 _ hfits hinstance,
    hlocates.moved 7 40 _ hfits hother hinstance, hrecord, hlocates'.points 7 _ hfits hrecord⟩

/-- At the last offset of 64 bits there is no place for the error that the statement has at the first. -/
theorem parse_position_overflows :
    RawInstance.parseAt? [' ', 'x'] 0 = some (.error ⟨1, "x"⟩) ∧
    RawInstance.parseAt? [' ', 'x'] 18446744073709551615 = none :=
  ⟨by cbv, by cbv⟩

end BuildingModel.Exchange
