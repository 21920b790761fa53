import BuildingModel.Kind
import BuildingModel.Value

/-!
# Linked values

Parameter values in which every reference is either a link to an entity of the same model or marked as
dangling.
-/

namespace BuildingModel

/-- The place of an entity in its model. -/
abbrev Handle := Nat

/-- A parameter value with its references linked. -/
inductive LinkedValue where
  | integer (n : Int64)
  | real (x : Float)
  | text (s : String)
  | enum (name : String)
  /-- A link to an entity of the model. -/
  | link (target : Handle)
  /-- A reference to a number that no entity has. -/
  | dangling (id : EntityId)
  | list (items : List LinkedValue)
  | typed (name : String) (args : List LinkedValue)
  | omitted
  | derived
deriving Inhabited

mutual
/-- Link a value, where `find` gives the place of an entity. -/
def Value.link (find : EntityId → Option Handle) : Value → LinkedValue
  | .integer n => .integer n
  | .real x => .real x
  | .text s => .text s
  | .enum name => .enum name
  | .ref id =>
    match find id with
    | some target => .link target
    | none => .dangling id
  | .list items => .list (linkAll find items)
  | .typed name args => .typed name (linkAll find args)
  | .omitted => .omitted
  | .derived => .derived

/-- Link several values. -/
def Value.linkAll (find : EntityId → Option Handle) : List Value → List LinkedValue
  | [] => []
  | v :: vs => v.link find :: linkAll find vs
end

namespace LinkedValue

/-- The entity that the value links to. -/
def link? : LinkedValue → Option Handle
  | .link target => some target
  | _ => none

/-- The text of a string. -/
def text? : LinkedValue → Option String
  | .text s => some s
  | _ => none

/-- The name of an enumeration value. -/
def enum? : LinkedValue → Option String
  | .enum name => some name
  | _ => none

/-- The number that the value stands for: a real, an integer, or a typed value around one number. -/
def number? : LinkedValue → Option Float
  | .real x => some x
  | .integer n => some n.toFloat
  | .typed _ [arg] => arg.number?
  | _ => none

/-- The value of an integer. -/
def integer? : LinkedValue → Option Int64
  | .integer n => some n
  | _ => none

/-- The truth value of `.T.` and `.F.`. -/
def bool? (v : LinkedValue) : Option Bool :=
  match v.enum? with
  | some "T" | some "TRUE" => some true
  | some "F" | some "FALSE" => some false
  | _ => none

/-- The items of a list. -/
def list? : LinkedValue → Option (List LinkedValue)
  | .list items => some items
  | _ => none

/-- Whether no value is given: `$` or `*`. -/
def isOmitted : LinkedValue → Bool
  | .omitted | .derived => true
  | _ => false

mutual
/-- The links of the value, at any depth, in reading order. -/
def links : LinkedValue → List Handle
  | .link target => [target]
  | .list items => linksOf items
  | .typed _ args => linksOf args
  | _ => []

/-- The links of several values. -/
def linksOf : List LinkedValue → List Handle
  | [] => []
  | v :: vs => v.links ++ linksOf vs
end

mutual
/-- The numbers of missing entities that the value refers to, at any depth, in reading order. -/
def danglings : LinkedValue → List EntityId
  | .dangling id => [id]
  | .list items => danglingsOf items
  | .typed _ args => danglingsOf args
  | _ => []

/-- The numbers of missing entities that several values refer to. -/
def danglingsOf : List LinkedValue → List EntityId
  | [] => []
  | v :: vs => v.danglings ++ danglingsOf vs
end

end LinkedValue

/-- An entity with linked parameters. -/
structure LinkedEntity where
  id : EntityId
  kind : Kind
  params : List LinkedValue
deriving Inhabited

namespace LinkedEntity

/-- The parameter at a place. -/
def param? (e : LinkedEntity) (i : Nat) : Option LinkedValue := e.params[i]?

/-- The link at a place. -/
def link? (e : LinkedEntity) (i : Nat) : Option Handle := (e.param? i).bind (·.link?)

/-- The number at a place. -/
def number? (e : LinkedEntity) (i : Nat) : Option Float := (e.param? i).bind (·.number?)

/-- The text at a place. -/
def text? (e : LinkedEntity) (i : Nat) : Option String := (e.param? i).bind (·.text?)

/-- The list at a place. -/
def list? (e : LinkedEntity) (i : Nat) : Option (List LinkedValue) := (e.param? i).bind (·.list?)

/-- Whether there is no value at a place. -/
def isOmitted (e : LinkedEntity) (i : Nat) : Bool := ((e.param? i).map (·.isOmitted)).getD true

/-- The name of a rooted entity. -/
def name? (e : LinkedEntity) : Option String := e.text? 2

/-- The globally unique identifier of a rooted entity. -/
def globalId? (e : LinkedEntity) : Option String := e.text? 0

/-- All links of the entity, in reading order. -/
def links (e : LinkedEntity) : List Handle := LinkedValue.linksOf e.params

/-- All missing entities that the entity refers to, in reading order. -/
def danglings (e : LinkedEntity) : List EntityId := LinkedValue.danglingsOf e.params

/-- Whether the parameter at place `i` of an entity of a kind feeds its shape. Products and spatial
elements take their shape from their placement and their representation alone. -/
def isShapeParam (kind : Kind) (i : Nat) : Bool :=
  if kind.isProduct || kind.isSpatial then i == 5 || i == 6 else true

/-- The parameters that feed the shape of the entity. -/
def shapeParams (e : LinkedEntity) : List LinkedValue :=
  (e.params.zipIdx.filter fun (_, i) => isShapeParam e.kind i).map (·.1)

/-- Whether a missing entity would be needed for the shape. -/
def hasDanglingShape (e : LinkedEntity) : Bool :=
  !(LinkedValue.danglingsOf e.shapeParams).isEmpty

end LinkedEntity

end BuildingModel
