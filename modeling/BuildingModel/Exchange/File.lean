import Std.Data.HashMap
import BuildingModel.Exchange.Error
import BuildingModel.Exchange.Header
import BuildingModel.Exchange.Statement
import BuildingModel.Kind
import BuildingModel.Problem
import BuildingModel.Text.Utf8

/-!
# Exchange files

An exchange file is a header and a list of entities. What a statement does depends on the section it
stands in; a statement that does nothing else leaves a problem behind, and the rest is read on.
-/

namespace BuildingModel

/-- An entity of a file, with its parameters as they are written. -/
structure Entity where
  id : EntityId
  kind : Kind
  params : List Value
deriving Inhabited

namespace Exchange

open Text

/-- The sections whose statements are read. -/
inductive Section where
  | header
  | data
deriving DecidableEq, Repr

/-- What one statement does. -/
inductive Act where
  /-- It shows that the file is an exchange file. -/
  | signature
  | openHeader
  | openData
  | closeSection
  | headerRecord (record : HeaderRecord)
  | entity (raw : RawInstance)
  | problem (p : Problem)

/-- The number of the instance that a statement seems to open. -/
def leadingId (text : List Char) : Option EntityId :=
  match skipBlanks text with
  | '#' :: s => (entityId? s).map (·.1)
  | _ => none

/-- A problem with a statement. -/
def statementProblem (entity : Option EntityId) (message : String) : Act :=
  .problem ⟨.entityParse, entity, message⟩

/-- What a keyword does. -/
def keywordAct (st : Statement) (word : String) : Act :=
  if word = "ISO-10303-21" then .signature
  else if word = "HEADER" then .openHeader
  else if word = "DATA" then .openData
  else if word = "ENDSEC" then .closeSection
  else statementProblem none s!"unexpected keyword `{word}` at byte {st.offset}"

/-- What a statement of the header does. -/
def headerAct (st : Statement) : Act :=
  match HeaderRecord.parse st.text st.offset with
  | .ok record => .headerRecord record
  | .error e => .problem ⟨.header, none, (ReadError.ofSyntax e).message⟩

/-- What a statement of the data section does. -/
def dataAct (st : Statement) : Act :=
  if st.terminated then
    match RawInstance.parse st.text st.offset with
    | .ok raw => .entity raw
    | .error e => statementProblem (leadingId st.text) (ReadError.ofSyntax e).message
  else statementProblem (leadingId st.text) s!"unterminated statement at byte {st.offset}"

/-- Whether a statement opens a data section that has parameters. -/
def opensParameterisedData (st : Statement) : Bool :=
  "DATA".toList.isPrefixOf (skipBlanks st.text)

/-- What a statement does that stands in a section, or in none. -/
def Statement.act (st : Statement) (here : Option Section) : Act :=
  match st.keyword? with
  | some word => keywordAct st (String.ofList word)
  | none =>
    match here with
    | some .header => headerAct st
    | some .data => dataAct st
    | none =>
      if opensParameterisedData st then .openData
      else statementProblem (leadingId st.text) s!"statement outside any section at byte {st.offset}"

/-- Whether a statement ends the file, whatever follows it. -/
def Statement.endsFile (st : Statement) : Bool :=
  st.keyword? = some "END-ISO-10303-21".toList

/-- Entities in file order, and where each of them stands. -/
structure EntityTable where
  entities : Array Entity := #[]
  index : Std.HashMap EntityId Nat := {}
deriving Inhabited

namespace EntityTable

/-- Whether there is an entity with a number. -/
def contains (table : EntityTable) (id : EntityId) : Bool := table.index.contains id

/-- Where the entity with a number stands. -/
def position? (table : EntityTable) (id : EntityId) : Option Nat := table.index[id]?

/-- The entity with a number. -/
def get? (table : EntityTable) (id : EntityId) : Option Entity := do
  let i ← table.position? id
  table.entities[i]?

/-- Add an entity at the end. -/
def push (table : EntityTable) (entity : Entity) : EntityTable where
  entities := table.entities.push entity
  index := table.index.insert entity.id table.entities.size

/-- How many entities there are. -/
def size (table : EntityTable) : Nat := table.entities.size

end EntityTable

/-- A file while it is being read. -/
structure ReadState where
  signed : Bool := false
  hasData : Bool := false
  here : Option Section := none
  header : FileHeader := {}
  table : EntityTable := {}
  log : ProblemLog

/-- Take over what a statement does. Of two instances with one number the first counts. -/
def ReadState.apply (p : ReadState) : Act → ReadState
  | .signature => { p with signed := true }
  | .openHeader => { p with here := some .header }
  | .openData => { p with here := some .data, hasData := true }
  | .closeSection => { p with here := none }
  | .headerRecord record => { p with header := p.header.apply record }
  | .entity raw =>
    if p.table.contains raw.id then
      let message := (ReadError.duplicateEntity raw.id).message
      { p with log := p.log.push ⟨.duplicateEntity, some raw.id, message⟩ }
    else { p with table := p.table.push ⟨raw.id, Kind.ofName raw.typeName, raw.params⟩ }
  | .problem problem => { p with log := p.log.push problem }

/-- Read one statement. -/
def ReadState.step (p : ReadState) (st : Statement) : ReadState := p.apply (st.act p.here)

/-- The statements of a text that count: those before the one that ends the file. -/
def fileStatements (text : List Char) : List Statement :=
  (statements text).takeWhile (!·.endsFile)

/-- The state of reading after all statements of a text. -/
def readStatements (text : List Char) (limit : Nat) : ReadState :=
  (fileStatements text).foldl ReadState.step { log := .empty limit }

end Exchange

open Exchange in
/-- An exchange file: its header, its entities, and the problems met while reading it. -/
structure ExchangeFile where
  header : FileHeader
  table : EntityTable
  log : ProblemLog
deriving Inhabited

namespace ExchangeFile

open Exchange Text

/-- Read a text, keeping at most `limit` problems. Without a data section there is nothing to read. -/
def parse (text : List Char) (limit : Nat) : Except ReadError ExchangeFile :=
  let p := readStatements text limit
  if p.hasData then .ok ⟨p.header, p.table, p.log⟩
  else if p.signed then .error .noDataSection
  else .error .notExchangeFile

/-- Read bytes, keeping at most `limit` problems. -/
def ofBytes (bytes : List UInt8) (limit : Nat) : Except ReadError ExchangeFile :=
  parse (decodeBytes bytes) limit

/-- The entities in file order. -/
def entities (file : ExchangeFile) : List Entity := file.table.entities.toList

/-- The entity with a number. -/
def get? (file : ExchangeFile) (id : EntityId) : Option Entity := file.table.get? id

/-- Whether there is an entity with a number. -/
def contains (file : ExchangeFile) (id : EntityId) : Bool := file.table.contains id

/-- How many entities there are. -/
def size (file : ExchangeFile) : Nat := file.table.size

/-- The numbers of the entities of a kind, in file order. -/
def idsOfKind (file : ExchangeFile) (kind : Kind) : List EntityId :=
  (file.entities.filter (·.kind = kind)).map (·.id)

/-- How many entities each kind has, by the name of the kind. -/
def kindCounts (file : ExchangeFile) : List (String × Nat) :=
  let names := (file.entities.map (·.kind.name)).mergeSort (fun a b => decide (a ≤ b))
  names.eraseDups.map fun name => (name, names.count name)

end ExchangeFile

/-- The parameter at a place. -/
def Entity.param? (e : Entity) (i : Nat) : Option Value := e.params[i]?

end BuildingModel
