import BuildingModel.Number.Natural

/-!
# Blank characters

White space in the sense of the character database, the narrower ASCII class, and trimming.
-/

namespace BuildingModel.Text

/-- White space: the characters with the property of that name. -/
def isBlank (c : Char) : Bool :=
  let n := c.toNat
  (0x09 ≤ n && n ≤ 0x0D) || n == 0x20 || n == 0x85 || n == 0xA0 || n == 0x1680 ||
    (0x2000 ≤ n && n ≤ 0x200A) || n == 0x2028 || n == 0x2029 || n == 0x202F || n == 0x205F ||
    n == 0x3000

/-- Blank, tab, new line, form feed and carriage return. -/
def isAsciiBlank (c : Char) : Bool :=
  c == ' ' || c == '\t' || c == '\n' || c == '\x0c' || c == '\r'

/-- An ASCII blank is white space. -/
theorem isBlank_of_isAsciiBlank {c : Char} (h : isAsciiBlank c = true) : isBlank c = true := by
  simp only [isAsciiBlank, Bool.or_eq_true, beq_iff_eq] at h
  rcases h with (((rfl | rfl) | rfl) | rfl) | rfl <;> decide

/-- Drop leading white space. -/
def skipBlanks (cs : List Char) : List Char := cs.dropWhile isBlank

/-- Drop trailing white space. -/
def trimEnd (cs : List Char) : List Char := (cs.reverse.dropWhile isBlank).reverse

/-- Drop white space at both ends. -/
def trim (cs : List Char) : List Char := trimEnd (skipBlanks cs)

/-- Dropping characters never makes a text longer. -/
theorem length_dropWhile_le (p : Char → Bool) (cs : List Char) :
    (cs.dropWhile p).length ≤ cs.length :=
  (List.dropWhile_sublist p).length_le

/-- Skipping white space never makes a text longer. -/
theorem length_skipBlanks_le (cs : List Char) : (skipBlanks cs).length ≤ cs.length :=
  length_dropWhile_le isBlank cs

/-- The number of bytes that a text takes when it is stored. -/
def byteLength (cs : List Char) : Nat := Number.sumOf Char.utf8Size cs

/-- Letters, digits and the underscore. -/
def isNameChar (c : Char) : Bool := c.isAlphanum || c == '_'

/-- Characters of a keyword: those of a name and the hyphen. -/
def isKeywordChar (c : Char) : Bool := isNameChar c || c == '-'

/-- A text in capitals; only ASCII letters change. -/
def upperCase (cs : List Char) : List Char := cs.map Char.toUpper

end BuildingModel.Text
