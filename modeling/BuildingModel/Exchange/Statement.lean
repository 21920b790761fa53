import BuildingModel.Text.Blank

/-!
# Statements

An exchange file is cut into statements before any of them is read. Cutting looks only at string
literals, comments, semicolons, and lines that open another instance.
-/

namespace BuildingModel.Exchange

open Text

/-- One statement of a file. -/
structure Statement where
  /-- Byte offset of its first character. -/
  offset : Nat
  /-- With the semicolon, if it has one. -/
  text : List Char
  /-- Whether a semicolon ends it, and not a new instance or the end of the file. -/
  terminated : Bool
deriving DecidableEq, Repr

/-- The keyword of a statement that is nothing but a keyword and a semicolon. -/
def Statement.keyword? (st : Statement) : Option (List Char) :=
  match (trim st.text).reverse with
  | ';' :: before =>
    let body := trimEnd before.reverse
    if body ≠ [] ∧ body.all isKeywordChar then some body else none
  | _ => none

/-- What the characters at some place of a file belong to. -/
inductive Mode where
  | plain
  /-- Between apostrophes. A doubled apostrophe ends a literal and opens the next at once. -/
  | literal
  /-- At the star that opens a comment. -/
  | opening
  /-- In a comment, and whether the last character was a star. -/
  | comment (star : Bool)
deriving DecidableEq, Repr

/-- Whether a comment opens with the character `c`, after which `rest` follows. -/
def opensComment (c : Char) (rest : List Char) : Bool :=
  c = '/' && rest.head? = some '*'

/-- The mode after the character `c`, after which `rest` follows. -/
def Mode.step (mode : Mode) (c : Char) (rest : List Char) : Mode :=
  match mode with
  | .plain => if c = '\'' then .literal else if opensComment c rest then .opening else .plain
  | .literal => if c = '\'' then .plain else .literal
  | .opening => .comment false
  | .comment star => if star && c = '/' then .plain else .comment (c = '*')

/-- How a statement ends. -/
inductive Ending where
  | semicolon
  /-- The next line opens another instance. -/
  | newInstance
  | endOfFile
deriving DecidableEq, Repr

/-- Whether a line opens an instance: blanks, `#`, digits, blanks, `=`. -/
def opensInstance (line : List Char) : Bool :=
  match line.dropWhile (fun c => c == ' ' || c == '\t' || c == '\r') with
  | '#' :: s =>
    match s.takeWhile Char.isDigit with
    | [] => false
    | _ =>
      match (s.dropWhile Char.isDigit).dropWhile (fun c => c == ' ' || c == '\t') with
      | '=' :: _ => true
      | _ => false
  | _ => false

/-- A piece cut from the front of a text. -/
structure Cut where
  /-- The characters of the piece, last one first. -/
  taken : List Char
  ending : Ending
  /-- What follows the piece, and the line end that ended it. -/
  rest : List Char

/-- Cut the statement at the front of a text; `taken` has been cut already, and `mode` holds here. -/
def cut (mode : Mode) (taken : List Char) : List Char → Cut
  | [] => ⟨taken, .endOfFile, []⟩
  | c :: s =>
    if mode = .plain ∧ c = ';' then ⟨c :: taken, .semicolon, s⟩
    else if mode = .plain ∧ c = '\n' ∧ opensInstance s then ⟨taken, .newInstance, s⟩
    else cut (mode.step c s) (c :: taken) s

/-- Cutting never makes the text longer. -/
theorem length_rest_cut_le (mode : Mode) (taken s : List Char) :
    (cut mode taken s).rest.length ≤ s.length := by
  induction s generalizing mode taken with
  | nil => simp [cut]
  | cons c s ih =>
    unfold cut
    split
    · simp
    · split
      · simp
      · exact Nat.le_succ_of_le (ih _ _)

/-- Cutting takes something from a text that is not empty. -/
theorem length_rest_cut_lt (mode : Mode) (taken : List Char) {s : List Char} (h : s ≠ []) :
    (cut mode taken s).rest.length < s.length := by
  cases s with
  | nil => contradiction
  | cons c s =>
    unfold cut
    split
    · simp
    · split
      · simp
      · exact Nat.lt_succ_of_le (length_rest_cut_le _ _ _)

/-- A place in a file: its byte offset, and the text from there on. -/
structure Cursor where
  position : Nat
  rest : List Char
deriving DecidableEq, Repr

namespace Cursor

/-- The start of a text. -/
def start (text : List Char) : Cursor := ⟨0, text⟩

/-- Move on by whole characters until the byte offset `target` or the end of the text. -/
def advanceTo (target : Nat) (position : Nat) : List Char → Cursor
  | [] => ⟨position, []⟩
  | c :: s =>
    if target ≤ position then ⟨position, c :: s⟩
    else advanceTo target (position + c.utf8Size) s

/-- The place at a byte offset of a text, or its end if the text is shorter. -/
def ofOffset (text : List Char) (offset : Nat) : Cursor := advanceTo offset 0 text

/-- Move on over ASCII white space and comments. -/
def skipTrivia (mode : Mode) (position : Nat) : List Char → Cursor
  | [] => ⟨position, []⟩
  | c :: s =>
    if mode = .plain ∧ !isAsciiBlank c ∧ !opensComment c s then ⟨position, c :: s⟩
    else skipTrivia (mode.step c s) (position + c.utf8Size) s

/-- Skipping trivia never makes the text longer. -/
theorem length_rest_skipTrivia_le (mode : Mode) (position : Nat) (s : List Char) :
    (skipTrivia mode position s).rest.length ≤ s.length := by
  induction s generalizing mode position with
  | nil => simp [skipTrivia]
  | cons c s ih =>
    unfold skipTrivia
    split
    · simp
    · exact Nat.le_succ_of_le (ih _ _)

/-- The statement that begins at a place, and the place where it has been cut off. -/
def statementHere (here : Cursor) : Statement × Cursor :=
  let piece := cut .plain [] here.rest
  let finish := here.position + byteLength piece.taken
  match piece.ending with
  | .semicolon => (⟨here.position, piece.taken.reverse, true⟩, ⟨finish, piece.rest⟩)
  | .newInstance =>
    (⟨here.position, trimEnd piece.taken.reverse, false⟩, ⟨finish + 1, piece.rest⟩)
  | .endOfFile => (⟨here.position, trimEnd piece.taken.reverse, false⟩, ⟨finish, piece.rest⟩)

/-- The text after a statement is what cutting left. -/
theorem rest_statementHere (here : Cursor) :
    (statementHere here).2.rest = (cut .plain [] here.rest).rest := by
  unfold statementHere
  simp only
  split <;> rfl

/-- The next statement, and the place after it. Only trivia may be left after the last one. -/
def next? (here : Cursor) : Option (Statement × Cursor) :=
  let here := skipTrivia .plain here.position here.rest
  if here.rest = [] then none else some here.statementHere

/-- The text after a statement is shorter. -/
theorem length_of_next? {here there : Cursor} {st : Statement} (h : here.next? = some (st, there)) :
    there.rest.length < here.rest.length := by
  unfold next? at h
  simp only at h
  split at h
  · simp at h
  · rename_i hne
    simp only [Option.some.injEq] at h
    have h1 := length_rest_skipTrivia_le .plain here.position here.rest
    have h2 := length_rest_cut_lt .plain [] hne
    have h3 := rest_statementHere (skipTrivia .plain here.position here.rest)
    rw [h] at h3
    simp only at h3
    rw [h3]
    omega

/-- All statements from a place on, each with the byte offset after it. -/
def statements (here : Cursor) : List (Statement × Nat) :=
  match _h : here.next? with
  | some (st, there) => (st, there.position) :: statements there
  | none => []
termination_by here.rest.length
decreasing_by exact length_of_next? _h

/-- The byte offset at the end of the text. -/
def finish (here : Cursor) : Nat := here.position + byteLength here.rest

end Cursor

/-- The statements of a text. -/
def statements (text : List Char) : List Statement :=
  (Cursor.start text).statements.map (·.1)

end BuildingModel.Exchange
