import BuildingModel.Exchange.Parameters

/-!
# Instances and header records

Reading one complete statement: an entity instance `#1=NAME(…);` of the data section, or a record
`NAME(…);` of the header.
-/

namespace BuildingModel.Exchange

open Text

/-- Where a statement could not be read, as a byte offset in the file, and the text found there. -/
structure SyntaxError where
  position : Nat
  near : String
deriving DecidableEq, Repr, Inhabited

/-- How many characters of the text a syntax error quotes. -/
def SyntaxError.quotedLength : Nat := 16

/-- The error of a statement at byte `offset`, of which `rest` could not be read. -/
def SyntaxError.ofRest (statement : List Char) (offset : Nat) (rest : List Char) : SyntaxError where
  position := offset + (byteLength statement - byteLength rest)
  near := String.ofList (rest.take quotedLength)

/-- The wording of a syntax error, without its position. -/
def SyntaxError.reason (e : SyntaxError) : String :=
  s!"unexpected input near `{e.near}`"

/-- An entity instance as it is written. -/
structure RawInstance where
  id : EntityId
  /-- In capitals. -/
  typeName : String
  params : List Value

/-- A record of the header. -/
structure HeaderRecord where
  /-- In capitals. -/
  name : String
  params : List Value

/-- A given character, after which the text goes on; otherwise the text itself is at fault. -/
def expect (c : Char) (s : List Char) : Except (List Char) (List Char) :=
  match s with
  | d :: r => if d = c then .ok r else .error s
  | [] => .error s

/-- A keyword with the white space around it. -/
def keyword (s : List Char) : Except (List Char) (List Char × List Char) :=
  let s := skipBlanks s
  match run? isKeywordChar s with
  | some (w, r) => .ok (w, skipBlanks r)
  | none => .error s

/-- The brackets, the values between them and what follows. -/
def parameterList (s : List Char) : Except (List Char) (List Value × List Char) :=
  (parameters s).map fun (vs, r) => (vs, r.1)

/-- The end of a statement: a semicolon, and nothing but white space after it. -/
def statementEnd (s : List Char) : Except (List Char) Unit := do
  let s ← expect ';' (skipBlanks s)
  match skipBlanks s with
  | [] => .ok ()
  | rest => .error rest

/-- An instance, or the text at which reading stopped. -/
def instanceOf (s : List Char) : Except (List Char) RawInstance := do
  let s ← expect '#' (skipBlanks s)
  let (id, s) ← match entityId? s with
    | some found => .ok found
    | none => .error s
  let s ← expect '=' (skipBlanks s)
  let (name, s) ← keyword s
  let (params, s) ← parameterList s
  statementEnd s
  return ⟨id, String.ofList (upperCase name), params⟩

/-- A header record, or the text at which reading stopped. -/
def recordOf (s : List Char) : Except (List Char) HeaderRecord := do
  let (name, s) ← keyword s
  let (params, s) ← parameterList s
  statementEnd s
  return ⟨String.ofList (upperCase name), params⟩

/-- Read a complete statement that stands at byte `offset` of its file. -/
def complete (read : List Char → Except (List Char) α) (statement : List Char) (offset : Nat) :
    Except SyntaxError α :=
  (read statement).mapError (SyntaxError.ofRest statement offset)

/-- Read an instance from a statement that stands at byte `offset` of its file. -/
def RawInstance.parse (statement : List Char) (offset : Nat) : Except SyntaxError RawInstance :=
  complete instanceOf statement offset

/-- Read a header record from a statement that stands at byte `offset` of its file. -/
def HeaderRecord.parse (statement : List Char) (offset : Nat) : Except SyntaxError HeaderRecord :=
  complete recordOf statement offset

/-- An outcome whose position, if it has one, fits 64 bits. Without such a position there is no outcome. -/
def inWord? (outcome : Except SyntaxError α) : Option (Except SyntaxError α) :=
  match outcome with
  | .error e => if e.position < UInt64.size then some (.error e) else none
  | .ok a => some (.ok a)

/-- Read an instance at an offset of 64 bits, which a caller may choose at will. -/
def RawInstance.parseAt? (statement : List Char) (offset : UInt64) : Option (Except SyntaxError RawInstance) :=
  inWord? (parse statement offset.toNat)

/-- Read a header record at an offset of 64 bits, which a caller may choose at will. -/
def HeaderRecord.parseAt? (statement : List Char) (offset : UInt64) : Option (Except SyntaxError HeaderRecord) :=
  inWord? (parse statement offset.toNat)

end BuildingModel.Exchange
