import BuildingModel.Number.Decimal
import BuildingModel.Text.Blank
import BuildingModel.Value

/-!
# Literals

Reading one simple value from the front of a text: numbers, references, strings and enumeration
values. A reader returns the value and the rest of the text, which is always shorter.
-/

namespace BuildingModel.Exchange

open Text Number

/-- The longest run of characters of a class, if it is not empty, and what follows it. -/
def run? (p : Char → Bool) (s : List Char) : Option (List Char × List Char) :=
  match s.takeWhile p with
  | [] => none
  | c :: cs => some (c :: cs, s.dropWhile p)

/-- What follows a run is shorter than the text. -/
theorem length_of_run? {p : Char → Bool} {s w r : List Char} (h : run? p s = some (w, r)) :
    r.length < s.length := by
  unfold run? at h
  split at h
  · simp at h
  · rename_i c cs hw
    have hl := congrArg List.length (List.takeWhile_append_dropWhile (p := p) (l := s))
    simp only [Option.some.injEq, Prod.mk.injEq] at h
    simp only [List.length_append, hw, List.length_cons, h.2] at hl
    omega

/-- An optional sign: whether it is a minus, and what follows. -/
def sign : List Char → Bool × List Char
  | '-' :: s => (true, s)
  | '+' :: s => (false, s)
  | s => (false, s)

/-- A sign takes at most one character. -/
theorem length_sign_le (s : List Char) : (sign s).2.length ≤ s.length := by
  unfold sign
  split <;> simp

/-- The value of a run of digits after its sign. -/
def signedValue (negative : Bool) (ds : List Char) : Int :=
  if negative then -(digitsValue ds : Int) else digitsValue ds

/-- An optional power of ten after a mantissa. -/
def power (s : List Char) : Int × List Char :=
  match s with
  | c :: s1 =>
    if c = 'e' ∨ c = 'E' then
      let (negative, s2) := sign s1
      match run? Char.isDigit s2 with
      | some (ds, r) => (signedValue negative ds, r)
      | none => (0, s)
    else (0, s)
  | [] => (0, s)

/-- A power never makes the text longer. -/
theorem length_power_le (s : List Char) : (power s).2.length ≤ s.length := by
  unfold power
  split
  · rename_i c s1
    split
    · split
      rename_i negative s2 hs
      split
      · rename_i ds r hr
        have h1 := length_of_run? hr
        have h2 := length_sign_le s1
        rw [hs] at h2
        simp only [List.length_cons] at *
        omega
      · simp
    · simp
  · simp

/-- A real number: `3.14`, `-2.`, `1.5E-10`. There is always a decimal point after the first digits. -/
def real? (s : List Char) : Option (Value × List Char) :=
  let (negative, s1) := sign s
  match run? Char.isDigit s1 with
  | some (whole, '.' :: s2) =>
    let places := s2.takeWhile Char.isDigit
    let (exponent, r) := power (s2.dropWhile Char.isDigit)
    let decimal : Decimal := ⟨negative, digitsValue (whole ++ places), exponent - places.length⟩
    some (.real decimal.toFloat, r)
  | _ => none

/-- An integer that fits 64 bits with sign: `42`, `-42`, `+7`. -/
def integer? (s : List Char) : Option (Value × List Char) :=
  let (negative, s1) := sign s
  match run? Char.isDigit s1 with
  | some (ds, r) =>
    let n := signedValue negative ds
    if Int64.minValue.toInt ≤ n ∧ n ≤ Int64.maxValue.toInt then some (.integer (.ofInt n), r)
    else none
  | none => none

/-- The number of an entity: digits whose value fits 64 bits. -/
def entityId? (s : List Char) : Option (EntityId × List Char) :=
  match run? Char.isDigit s with
  | some (ds, r) =>
    if digitsValue ds < UInt64.size then some ((digitsValue ds).toUInt64, r) else none
  | none => none

/-- A reference to an entity: `#123`. -/
def ref? : List Char → Option (Value × List Char)
  | '#' :: s => (entityId? s).map fun (id, r) => (.ref id, r)
  | _ => none

/-- The text up to the quote that ends it, with doubled quotes as they stand, and what follows the
ending quote. -/
def quoted? (quote : Char) : List Char → Option (List Char × List Char)
  | [] => none
  | [c] => if c = quote then some ([], []) else none
  | c :: d :: s =>
    if c = quote then
      if d = quote then (quoted? quote s).map fun (t, r) => (quote :: quote :: t, r)
      else some ([], d :: s)
    else (quoted? quote (d :: s)).map fun (t, r) => (c :: t, r)

/-- Read each doubled apostrophe as one. -/
def collapse : List Char → List Char
  | '\'' :: '\'' :: s => '\'' :: collapse s
  | c :: s => c :: collapse s
  | [] => []

/-- A string between apostrophes, with an apostrophe written twice inside, or a binary between double
quotes, which is kept as it is written. -/
def string? : List Char → Option (Value × List Char)
  | '\'' :: s => (quoted? '\'' s).map fun (t, r) => (.text (String.ofList (collapse t)), r)
  | '"' :: s => (quoted? '"' s).map fun (t, r) => (.text (String.ofList t), r)
  | _ => none

/-- An enumeration value: `.T.`, `.ELEMENT.`. -/
def enum? : List Char → Option (Value × List Char)
  | '.' :: s =>
    match run? isNameChar s with
    | some (w, '.' :: r) => some (.enum (String.ofList w), r)
    | _ => none
  | _ => none

/-- A mark for a value that is not written: `$` or `*`. -/
def blank? : List Char → Option (Value × List Char)
  | '$' :: r => some (.omitted, r)
  | '*' :: r => some (.derived, r)
  | _ => none

/-- A simple value. A real is tried before an integer, which it starts with. -/
def simple? (s : List Char) : Option (Value × List Char) :=
  (real? s).or <| (integer? s).or <| (ref? s).or <| (string? s).or <| (enum? s).or (blank? s)

/-- A real number takes some characters. -/
theorem length_of_real? {s r : List Char} {v : Value} (h : real? s = some (v, r)) :
    r.length < s.length := by
  have hs := length_sign_le s
  unfold real? at h
  cases hsign : sign s with
  | mk negative s1 =>
    rw [hsign] at hs h
    simp only at h hs
    split at h
    · rename_i whole s2 hw
      have h1 := length_of_run? hw
      have h2 := length_power_le (s2.dropWhile Char.isDigit)
      have h3 := length_dropWhile_le Char.isDigit s2
      simp only [Option.some.injEq, Prod.mk.injEq] at h
      rw [h.2] at h2
      simp only [List.length_cons] at h1
      omega
    · simp at h

/-- An integer takes some characters. -/
theorem length_of_integer? {s r : List Char} {v : Value} (h : integer? s = some (v, r)) :
    r.length < s.length := by
  have hs := length_sign_le s
  unfold integer? at h
  cases hsign : sign s with
  | mk negative s1 =>
    rw [hsign] at hs h
    simp only at h hs
    split at h
    · rename_i ds t hw
      have h1 := length_of_run? hw
      split at h
      · simp only [Option.some.injEq, Prod.mk.injEq] at h
        obtain ⟨_, rfl⟩ := h
        omega
      · simp at h
    · simp at h

/-- The number of an entity takes some characters. -/
theorem length_of_entityId? {s r : List Char} {id : EntityId} (h : entityId? s = some (id, r)) :
    r.length < s.length := by
  unfold entityId? at h
  split at h
  · rename_i ds t hw
    split at h
    · simp only [Option.some.injEq, Prod.mk.injEq] at h
      rw [← h.2]
      exact length_of_run? hw
    · simp at h
  · simp at h

/-- A reference takes some characters. -/
theorem length_of_ref? {s r : List Char} {v : Value} (h : ref? s = some (v, r)) :
    r.length < s.length := by
  unfold ref? at h
  split at h
  · rename_i s1
    simp only [Option.map_eq_some_iff, Prod.mk.injEq] at h
    obtain ⟨⟨id, t⟩, hid, _, rfl⟩ := h
    have := length_of_entityId? hid
    simp only [List.length_cons]
    omega
  · simp at h

/-- A quoted text takes some characters. -/
theorem length_of_quoted? {q : Char} {s t r : List Char} (h : quoted? q s = some (t, r)) :
    r.length < s.length := by
  fun_induction quoted? q s generalizing t with
  | case1 => simp at h
  | case2 => simp_all
  | case3 => simp at h
  | case4 s ih =>
    simp only [Option.map_eq_some_iff, Prod.mk.injEq] at h
    obtain ⟨⟨t', r'⟩, h', _, rfl⟩ := h
    have := ih h'
    simp only [List.length_cons] at *
    omega
  | case5 => simp_all
  | case6 c d s hc ih =>
    simp only [Option.map_eq_some_iff, Prod.mk.injEq] at h
    obtain ⟨⟨t', r'⟩, h', _, rfl⟩ := h
    have := ih h'
    simp only [List.length_cons] at *
    omega

/-- A string takes some characters. -/
theorem length_of_string? {s r : List Char} {v : Value} (h : string? s = some (v, r)) :
    r.length < s.length := by
  unfold string? at h
  split at h
  all_goals first | (simp at h; done) | skip
  all_goals
    simp only [Option.map_eq_some_iff, Prod.mk.injEq] at h
    obtain ⟨⟨t, r'⟩, hq, _, rfl⟩ := h
    have := length_of_quoted? hq
    simp only [List.length_cons]
    omega

/-- An enumeration takes some characters. -/
theorem length_of_enum? {s r : List Char} {v : Value} (h : enum? s = some (v, r)) :
    r.length < s.length := by
  unfold enum? at h
  split at h
  · split at h
    · rename_i w t hw
      have := length_of_run? hw
      simp only [Option.some.injEq, Prod.mk.injEq] at h
      obtain ⟨_, rfl⟩ := h
      simp only [List.length_cons] at *
      omega
    · simp at h
  · simp at h

/-- A value that is left out takes its character. -/
theorem length_of_blank? {s r : List Char} {v : Value} (h : blank? s = some (v, r)) :
    r.length < s.length := by
  unfold blank? at h
  split at h <;> simp_all

/-- What follows a simple value is shorter than the text. -/
theorem length_of_simple? {s r : List Char} {v : Value} (h : simple? s = some (v, r)) :
    r.length < s.length := by
  simp only [simple?, Option.or_eq_some_iff] at h
  rcases h with h | ⟨_, h | ⟨_, h | ⟨_, h | ⟨_, h | ⟨_, h⟩⟩⟩⟩⟩
  · exact length_of_real? h
  · exact length_of_integer? h
  · exact length_of_ref? h
  · exact length_of_string? h
  · exact length_of_enum? h
  · exact length_of_blank? h

end BuildingModel.Exchange
