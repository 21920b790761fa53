import BuildingModel.Linked.Spatial
import BuildingModel.Text.LowerCase

/-!
# Queries

Conditions on entities. A query is a list of conditions that all have to hold; its answers keep the
file order.
-/

namespace BuildingModel

/-- A condition on entities. -/
inductive Condition where
  | kind (kind : Kind)
  | anyKind (kinds : List Kind)
  /-- The name contains a text, whatever the case of the letters. -/
  | nameContains (part : String)
  | nameIs (name : String)
  | globalIdIs (globalId : String)
  /-- Held by a spatial container or any container below it. -/
  | within (container : EntityId)
  | product
deriving DecidableEq, Repr

/-- What has to hold of an entity. -/
def Condition.test (tree : SpatialTree) : Condition → LinkedEntity → Bool
  | .kind k => fun e => e.kind = k
  | .anyKind kinds => fun e => kinds.contains e.kind
  | .nameContains part =>
    let part := (Text.lowerCase part).toList
    fun e =>
      match e.name? with
      | some name => Text.occursIn part (Text.lowerCase name).toList
      | none => false
  | .nameIs name => fun e => e.name? = some name
  | .globalIdIs globalId => fun e => e.globalId? = some globalId
  | .within container =>
    let elements := tree.elementsUnder container
    fun e => elements.contains e.id
  | .product => fun e => e.kind.isProduct

namespace LinkedModel

/-- The entities that meet all conditions, with their places, in file order. -/
def select (m : LinkedModel) (tree : SpatialTree) (query : List Condition) :
    List (LinkedEntity × Handle) :=
  let tests := query.map (·.test tree)
  m.placed.filter fun (e, _) => tests.all fun test => test e

/-- The numbers of the entities that meet all conditions, in file order. -/
def selectIds (m : LinkedModel) (tree : SpatialTree) (query : List Condition) : List EntityId :=
  (m.select tree query).map (·.1.id)

/-- The entities that a container holds itself. -/
def elementsIn (m : LinkedModel) (tree : SpatialTree) (container : EntityId) : List LinkedEntity :=
  match tree.node? container with
  | some node => node.elements.filterMap m.byId?
  | none => []

end LinkedModel

end BuildingModel
