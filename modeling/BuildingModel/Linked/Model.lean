import BuildingModel.Exchange.File
import BuildingModel.Linked.Value
import BuildingModel.Linked.Walk

/-!
# Linked models

The entities of a file with their references linked, and for each of them whether it can be used.
Cycles are found over all references. Breakage spreads over shape references only, and never from
entities that give no shape: a missing owner is reported, but spoils no product.
-/

namespace BuildingModel

open Exchange

/-- A file whose references have been linked. -/
structure LinkedModel where
  header : FileHeader := {}
  entities : Array LinkedEntity := #[]
  index : Std.HashMap EntityId Handle := {}
  status : Array Status := #[]
  /-- Which entities are referred to by an entity that is no relationship. -/
  consumed : Array Bool := #[]
  log : ProblemLog := .empty defaultProblemLimit
deriving Inhabited

namespace LinkedModel

/-- The entity at a place. -/
def get? (m : LinkedModel) (h : Handle) : Option LinkedEntity := m.entities[h]?

/-- The place of the entity with a number. -/
def handle? (m : LinkedModel) (id : EntityId) : Option Handle := m.index[id]?

/-- The entity with a number. -/
def byId? (m : LinkedModel) (id : EntityId) : Option LinkedEntity := (m.handle? id).bind m.get?

/-- How many entities there are. -/
def size (m : LinkedModel) : Nat := m.entities.size

/-- The status of the entity at a place. -/
def statusOf (m : LinkedModel) (h : Handle) : Status := m.status.getD h .ok

/-- Whether the entity at a place is referred to by an entity that is no relationship. -/
def isConsumed (m : LinkedModel) (h : Handle) : Bool := m.consumed.getD h false

/-- The entity that the parameter at place `i` links to. -/
def follow? (m : LinkedModel) (e : LinkedEntity) (i : Nat) : Option LinkedEntity :=
  (e.link? i).bind m.get?

/-- The entities that the items of a list link to; all other items count for nothing. -/
def followAll (m : LinkedModel) (items : List LinkedValue) : List LinkedEntity :=
  items.filterMap fun v => v.link?.bind m.get?

/-- The entities in file order. -/
def entityList (m : LinkedModel) : List LinkedEntity := m.entities.toList

/-- The entities in file order, with their places. -/
def placed (m : LinkedModel) : List (LinkedEntity × Handle) := m.entityList.zipIdx

/-- The first entity of a kind. -/
def firstOfKind? (m : LinkedModel) (kind : Kind) : Option LinkedEntity :=
  m.entityList.find? (·.kind = kind)

/-- The entities that may give a shape of their own: no other entity uses them, and they are no
resource, relationship or spatial container. -/
def candidates (m : LinkedModel) : List Handle :=
  (m.placed.filter fun (e, h) => !m.isConsumed h && !e.kind.isNonGeometric).map (·.2)

/-- How many entities have a status. -/
def statusCount (m : LinkedModel) (status : Status) : Nat := m.status.toList.count status

end LinkedModel

/-- Link the parameters of an entity. -/
def Entity.link (find : EntityId → Option Handle) (e : Entity) : LinkedEntity :=
  ⟨e.id, e.kind, Value.linkAll find e.params⟩

namespace LinkedEntity

/-- The problem of an entity that refers to missing entities. It names the first of them. -/
def danglingProblem? (e : LinkedEntity) : Option Problem :=
  match e.danglings with
  | [] => none
  | target :: others =>
    let message := (ReadError.missingTarget e.id target).message
    let more := if others.isEmpty then "" else s!" (and {others.length} more)"
    some ⟨.unresolvedReference, some e.id, message ++ more⟩

/-- The status of an entity before any other is looked at. -/
def ownStatus (e : LinkedEntity) : Status := if e.hasDanglingShape then .unresolved else .ok

end LinkedEntity

/-- The references between linked entities. -/
def References.ofEntities (entities : Array LinkedEntity) : References where
  all := entities.map (·.links)
  shape := entities.map fun e =>
    (LinkedValue.linksOf e.shapeParams).filter fun h =>
      !((entities[h]?).map (·.kind.isNonGeometric)).getD false

/-- Which entities are referred to by an entity that is no relationship. -/
def consumedBy (entities : Array LinkedEntity) : Array Bool :=
  let users := entities.toList.filter fun e => !e.kind.isRelationship
  (users.flatMap (·.links)).foldl (fun flags h => flags.setIfInBounds h true)
    (Array.replicate entities.size false)

/-- The problem of a cycle of references. -/
def cycleProblem (entities : Array LinkedEntity) (report : CycleReport) : Problem :=
  let id := ((entities[report.entry]?).map (·.id)).getD 0
  let message := (ReadError.referenceCycle id).message
  ⟨.cyclicReference, some id, s!"{message} ({report.length} entities)"⟩

/-- Link a file. -/
def ExchangeFile.link (file : ExchangeFile) : LinkedModel :=
  let entities := file.table.entities.map (·.link file.table.position?)
  let walk := Walk.runAll (References.ofEntities entities) (entities.map (·.ownStatus))
  let dangling := entities.toList.filterMap (·.danglingProblem?)
  let cycles := walk.reports.reverse.map (cycleProblem entities)
  { header := file.header
    entities := entities
    index := file.table.index
    status := walk.status
    consumed := consumedBy entities
    log := (file.log.pushAll dangling).pushAll cycles }

end BuildingModel
