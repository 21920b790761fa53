import BuildingModel.Exchange.Instance

/-!
# Errors of exchange files

Everything that can be wrong with an exchange file and its references, and the wording of it.
-/

namespace BuildingModel.Exchange

/-- What is wrong with an exchange file. -/
inductive ReadError where
  /-- There is neither a signature nor a data section. -/
  | notExchangeFile
  /-- There is a signature, but no data section. -/
  | noDataSection
  /-- A statement that cannot be read. -/
  | malformed (position : Nat) (reason : String)
  | duplicateEntity (id : EntityId)
  | missingTarget (owner target : EntityId)
  | referenceCycle (id : EntityId)
  | unknownEntity (id : EntityId)
deriving DecidableEq, Repr, Inhabited

namespace ReadError

/-- The error of a statement that cannot be read. -/
def ofSyntax (e : SyntaxError) : ReadError := .malformed e.position e.reason

/-- The wording of an error. -/
def message : ReadError → String
  | .notExchangeFile => "input is not an ISO-10303-21 file"
  | .noDataSection => "no DATA section found"
  | .malformed position reason => s!"parse error at byte {position}: {reason}"
  | .duplicateEntity id => s!"duplicate entity #{id}"
  | .missingTarget owner target => s!"#{owner} references missing entity #{target}"
  | .referenceCycle id => s!"reference cycle through #{id}"
  | .unknownEntity id => s!"entity #{id} not found"

/-- Whether an error ends the whole load, and not only spoils one entity. -/
def isFatal : ReadError → Bool
  | .notExchangeFile | .noDataSection => true
  | _ => false

end ReadError

end BuildingModel.Exchange
