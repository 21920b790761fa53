import BuildingModel.Exchange.Instance

/-!
# The header of an exchange file
-/

namespace BuildingModel.Exchange

/-- What the header section says about a file. -/
structure FileHeader where
  description : List String := []
  name : Option String := none
  timestamp : Option String := none
  originatingSystem : Option String := none
  /-- The schemas that the file follows, such as `IFC4`. -/
  schemas : List String := []
deriving DecidableEq, Repr, Inhabited

/-- The strings in a list value; everything else counts for nothing. -/
def stringsOf (v : Option Value) : List String :=
  match v with
  | some (.list items) => items.filterMap Value.text?
  | _ => []

namespace FileHeader

/-- Take a record over. A later record of the same name replaces an earlier one, and a record of an
unknown name changes nothing. -/
def apply (header : FileHeader) (record : HeaderRecord) : FileHeader :=
  let textAt (i : Nat) := record.params[i]?.bind Value.text?
  if record.name = "FILE_DESCRIPTION" then
    { header with description := stringsOf record.params.head? }
  else if record.name = "FILE_NAME" then
    { header with name := textAt 0, timestamp := textAt 1, originatingSystem := textAt 5 }
  else if record.name = "FILE_SCHEMA" then
    { header with schemas := stringsOf record.params.head? }
  else header

/-- The first schema. -/
def schema? (header : FileHeader) : Option String := header.schemas.head?

end FileHeader

end BuildingModel.Exchange
