import BuildingModel.Exchange.Literal

/-!
# Parameter lists

Reading `( value , value , … )`. A value is simple, a nested list, or a type name with a list of its
own. A list ends before the first thing that is no value, so a bad value anywhere inside shows only as
a missing closing bracket of the outermost list.
-/

namespace BuildingModel.Exchange

open Text

/-- A shorter text than `s`. -/
abbrev Shorter (s : List Char) := { r : List Char // r.length < s.length }

/-- A text that is no longer than `s`. -/
abbrev NoLonger (s : List Char) := { r : List Char // r.length ≤ s.length }

mutual
/-- A bracketed list of values. On failure, the text at which the missing bracket was expected. -/
def parameters (s : List Char) : Except (List Char) (List Value × Shorter s) :=
  match s with
  | '(' :: s1 =>
    match items s1 with
    | (vs, ⟨r1, h1⟩) =>
      match h : skipBlanks r1 with
      | ')' :: r =>
        .ok (vs, ⟨r, by
          have h2 := length_skipBlanks_le r1
          rw [h] at h2
          simp only [List.length_cons] at *
          omega⟩)
      | r => .error r
  | s => .error s
termination_by 3 * s.length
decreasing_by simp only [List.length_cons]; omega

/-- The values of a list, up to the first thing that is none. -/
def items (s : List Char) : List Value × NoLonger s :=
  match value? s with
  | some (v, ⟨r, h⟩) =>
    match moreItems r with
    | (vs, ⟨r', h'⟩) => (v :: vs, ⟨r', by omega⟩)
  | none => ([], ⟨s, Nat.le_refl _⟩)
termination_by 3 * s.length + 2
decreasing_by all_goals omega

/-- Further values, each after a comma. A comma without a value after it is left in place. -/
def moreItems (s : List Char) : List Value × NoLonger s :=
  match s with
  | ',' :: s1 =>
    match value? s1 with
    | some (v, ⟨r, h⟩) =>
      match moreItems r with
      | (vs, ⟨r', h'⟩) => (v :: vs, ⟨r', by simp only [List.length_cons]; omega⟩)
    | none => ([], ⟨',' :: s1, Nat.le_refl _⟩)
  | s => ([], ⟨s, Nat.le_refl _⟩)
termination_by 3 * s.length + 2
decreasing_by all_goals simp only [List.length_cons] at *; omega

/-- One value with the white space around it. -/
def value? (s : List Char) : Option (Value × Shorter s) :=
  have hs := length_skipBlanks_le s
  match h : simple? (skipBlanks s) with
  | some (v, r) =>
    some (v, ⟨skipBlanks r, by
      have h1 := length_of_simple? h
      have h2 := length_skipBlanks_le r
      omega⟩)
  | none =>
    match parameters (skipBlanks s) with
    | .ok (vs, ⟨r, h1⟩) =>
      some (.list vs, ⟨skipBlanks r, by have h2 := length_skipBlanks_le r; omega⟩)
    | .error _ =>
      match h : run? isKeywordChar (skipBlanks s) with
      | some (name, r) =>
        have h1 := length_of_run? h
        match parameters r with
        | .ok (args, ⟨r', h2⟩) =>
          some (.typed (String.ofList (upperCase name)) args,
            ⟨skipBlanks r', by have h3 := length_skipBlanks_le r'; omega⟩)
        | .error _ => none
      | none => none
termination_by 3 * s.length + 1
decreasing_by all_goals omega
end

end BuildingModel.Exchange
