import BuildingModel.Value

/-!
# Problems

Whatever is wrong with a model without stopping its load is a problem. A log counts all problems by
kind and keeps the first of them.
-/

namespace BuildingModel

/-- What kind of thing is wrong. -/
inductive ProblemKind where
  /-- A statement that cannot be read. -/
  | entityParse
  /-- A second instance with the same number. -/
  | duplicateEntity
  /-- A reference to nothing. -/
  | unresolvedReference
  /-- A chain of references that comes back to its start. -/
  | cyclicReference
  /-- An entity whose shape cannot be built. -/
  | extractionFailed
  /-- A header record that cannot be read. -/
  | header
deriving DecidableEq, Repr, Inhabited

namespace ProblemKind

/-- All kinds, in the order of reports. -/
def all : List ProblemKind :=
  [.entityParse, .duplicateEntity, .unresolvedReference, .cyclicReference, .extractionFailed, .header]

/-- The place of a kind in reports. -/
def index : ProblemKind → Fin 6
  | .entityParse => 0
  | .duplicateEntity => 1
  | .unresolvedReference => 2
  | .cyclicReference => 3
  | .extractionFailed => 4
  | .header => 5

/-- The name of a kind in reports. -/
def name : ProblemKind → String
  | .entityParse => "entity_parse"
  | .duplicateEntity => "duplicate_entity"
  | .unresolvedReference => "unresolved_reference"
  | .cyclicReference => "cyclic_reference"
  | .extractionFailed => "extraction_failed"
  | .header => "header"

end ProblemKind

/-- One problem. -/
structure Problem where
  kind : ProblemKind
  /-- The entity that has it, if it belongs to one. -/
  entity : Option EntityId
  message : String
deriving DecidableEq, Repr, Inhabited

/-- One line about a problem. -/
def Problem.text (p : Problem) : String :=
  match p.entity with
  | some id => s!"[{p.kind.name}] #{id}: {p.message}"
  | none => s!"[{p.kind.name}] {p.message}"

/-- How many problems a log keeps unless told otherwise. -/
def defaultProblemLimit : Nat := 50

/-- The problems of a load: a count for each kind, in 64 bits, and the first `limit` problems. -/
structure ProblemLog where
  counts : Vector UInt64 6
  entries : Array Problem
  limit : Nat
deriving Inhabited

namespace ProblemLog

/-- A log without problems that will keep at most `limit` of them. -/
def empty (limit : Nat) : ProblemLog := ⟨Vector.replicate 6 0, #[], limit⟩

/-- Record a problem. -/
def push (log : ProblemLog) (p : Problem) : ProblemLog where
  counts := log.counts.set p.kind.index (log.counts[p.kind.index] + 1)
  entries := if log.entries.size < log.limit then log.entries.push p else log.entries
  limit := log.limit

/-- Record several problems in order. -/
def pushAll (log : ProblemLog) (ps : List Problem) : ProblemLog := ps.foldl push log

/-- How many problems of a kind there were. -/
def count (log : ProblemLog) (kind : ProblemKind) : UInt64 := log.counts[kind.index]

/-- How many problems there were. -/
def total (log : ProblemLog) : UInt64 := log.counts.foldl (· + ·) 0

/-- Whether there were no problems. -/
def isEmpty (log : ProblemLog) : Bool := log.total == 0

/-- Take the problems of another log over, under the limit of this one. -/
def merge (log other : ProblemLog) : ProblemLog where
  counts := Vector.ofFn fun i => log.counts[i] + other.counts[i]
  entries := log.entries ++ other.entries.take (log.limit - log.entries.size)
  limit := log.limit

/-- The kinds that occurred, in the order of reports, with their counts. -/
def summaryCounts (log : ProblemLog) : List (ProblemKind × UInt64) :=
  (ProblemKind.all.map fun kind => (kind, log.count kind)).filter (0 < ·.2)

/-- The lines about the kept problems. -/
def messages (log : ProblemLog) : List String := log.entries.toList.map Problem.text

end ProblemLog

end BuildingModel
