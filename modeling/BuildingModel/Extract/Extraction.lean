import BuildingModel.Extract.Product
import BuildingModel.Extract.Progress
import BuildingModel.Linked.LengthUnit

/-!
# Extraction

The shapes of all entities of a model that have one. Entities are taken in batches; before each batch
and at the end the run looks whether it has been cancelled. A cancelled run gives nothing, and neither does one
in which an entity overflows.
-/

namespace BuildingModel

/-- How many entities were looked at, and what became of them. -/
structure ExtractionSummary where
  candidates : Nat
  extracted : Nat
  /-- Candidates without a rule. -/
  skippedUnsupported : Nat
  /-- Candidates that depend on missing entities or on cycles. -/
  excludedBroken : Nat
  /-- Candidates that gave no shape. -/
  failed : Nat
deriving DecidableEq, Repr, Inhabited

/-- What an extraction gives. -/
structure Extraction where
  objects : List (PlacedShape Float32)
  summary : ExtractionSummary
  log : ProblemLog
  /-- How many metres the length unit of the model is. -/
  unit : Float

/-- An entity to extract, and how. -/
structure WorkItem where
  entity : LinkedEntity
  rule : ExtractionRule

/-- What becomes of a candidate before any shape is made. -/
inductive Screened where
  | unsupported
  | broken
  | accepted (item : WorkItem)

namespace Screened

/-- The work to do for a candidate. -/
def work? : Screened → Option WorkItem
  | .accepted item => some item
  | _ => none

/-- Whether a candidate has no rule. -/
def isUnsupported : Screened → Bool
  | .unsupported => true
  | _ => false

/-- Whether a candidate is broken. -/
def isBroken : Screened → Bool
  | .broken => true
  | _ => false

end Screened

namespace LinkedModel

/-- Look at a candidate. -/
def screen (m : LinkedModel) (s : ExtractionSettings) (h : Handle) : Screened :=
  match m.get? h with
  | none => .unsupported
  | some e =>
    match s.rule? e.kind with
    | none => .unsupported
    | some rule => if m.statusOf h = .ok then .accepted ⟨e, rule⟩ else .broken

/-- All candidates of a model, looked at. -/
def screened (m : LinkedModel) (s : ExtractionSettings) : List Screened := m.candidates.map (m.screen s)

/-- The entities to extract. -/
def work (m : LinkedModel) (s : ExtractionSettings) : List WorkItem :=
  (m.screened s).filterMap (·.work?)

end LinkedModel

/-- A list cut into groups of `size + 1`; the last group may be smaller. -/
def groups {β : Type} (size : Nat) (xs : List β) : List (List β) :=
  match xs with
  | [] => []
  | x :: rest => (x :: rest.take size) :: groups size (rest.drop size)
termination_by xs.length
decreasing_by
  simp only [List.length_drop, List.length_cons]
  omega

/-- When a run is asked to stop: whether it is, at each look from the first on. -/
abbrev CancelSchedule := Nat → Bool

/-- A run that nobody stops. -/
def CancelSchedule.never : CancelSchedule := fun _ => false

/-- Handle batches one after the other, from a look on. The answer is what each item gave, unless the run
was stopped or an item ended it, and how far the run came after each batch. -/
def runBatches {β γ : Type} (cancelled : CancelSchedule) (handle : β → Except ShapeError γ) :
    (look : Nat) → List (List β) → Progress → Except ShapeError (List γ) × List Progress
  | look, [], p => (if cancelled look then .error .cancelled else .ok [], [p])
  | look, batch :: rest, p =>
    if cancelled look then (.error .cancelled, [p])
    else match batch.mapM handle with
      | .error e => (.error e, [p])
      | .ok results =>
        let (more, trail) := runBatches cancelled handle (look + 1) rest (p.advance batch.length.toUInt64)
        (more.map (results ++ ·), p :: trail)

/-- What came of an entity. -/
abbrev WorkResult := EntityId × Except ShapeError (PlacedShape Float32)

namespace WorkResult

/-- The shape, if there is one. -/
def object? (r : WorkResult) : Option (PlacedShape Float32) := r.2.toOption

/-- The problem, if there is one. -/
def problem? (r : WorkResult) : Option Problem :=
  match r.2 with
  | .ok _ => none
  | .error e => some ⟨.extractionFailed, some r.1, e.message⟩

end WorkResult

namespace LinkedModel

/-- Extract one entity. That it has no shape is a result, an overflow is not. -/
def extractItem (m : LinkedModel) (table : MethodTable) (unit : Float) (item : WorkItem) :
    Except ShapeError WorkResult :=
  let result := m.placedShape table unit item.entity item.rule
  match result with
  | .error .overflow => .error .overflow
  | _ => .ok (item.entity.id, result)

/-- Put results together. -/
def assemble (m : LinkedModel) (s : ExtractionSettings) (results : List WorkResult) : Extraction :=
  let screened := m.screened s
  let objects := results.filterMap (·.object?)
  let problems := results.filterMap (·.problem?)
  { objects := objects
    summary :=
      { candidates := screened.length
        extracted := objects.length
        skippedUnsupported := screened.countP (·.isUnsupported)
        excludedBroken := screened.countP (·.isBroken)
        failed := problems.length }
    log := (ProblemLog.empty s.messageLimit).pushAll problems
    unit := m.lengthUnit }

/-- Extract the shapes of a model. The answer comes with how far the run has come on the way. -/
def extract (m : LinkedModel) (s : ExtractionSettings) (table : MethodTable)
    (cancelled : CancelSchedule) (p : Progress) : Except ShapeError Extraction × List Progress :=
  let work := m.work s
  let (results, trail) := runBatches cancelled (m.extractItem table m.lengthUnit) 0
    (groups (s.batchSize - 1) work) (p.begin work.length.toUInt64)
  (results.map (m.assemble s), trail)

end LinkedModel

end BuildingModel
