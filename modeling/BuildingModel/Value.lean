/-!
# Parameter values

The values that an entity instance carries, and the questions a reader asks of them.
-/

namespace BuildingModel

/-- The number of an entity instance in its file. -/
abbrev EntityId := UInt64

/-- One parameter of an instance, as it is written. -/
inductive Value where
  | integer (n : Int64)
  | real (x : Float)
  | text (s : String)
  | ref (id : EntityId)
  | list (items : List Value)
  | enum (name : String)
  /-- A value with the name of its type, such as a measure. -/
  | typed (name : String) (args : List Value)
  /-- Left out: `$`. -/
  | omitted
  /-- Given by other parameters: `*`. -/
  | derived
deriving Inhabited

namespace Value

/-- The entity that the value refers to. -/
def ref? : Value → Option EntityId
  | .ref id => some id
  | _ => none

/-- The text of a string. -/
def text? : Value → Option String
  | .text s => some s
  | _ => none

/-- The name of an enumeration value. -/
def enum? : Value → Option String
  | .enum name => some name
  | _ => none

/-- The number that the value stands for: a real, an integer, or a typed value around one number. -/
def number? : Value → Option Float
  | .real x => some x
  | .integer n => some n.toFloat
  | .typed _ [arg] => arg.number?
  | _ => none

/-- The value of an integer. -/
def integer? : Value → Option Int64
  | .integer n => some n
  | _ => none

/-- The truth value of `.T.` and `.F.`. -/
def bool? (v : Value) : Option Bool :=
  match v.enum? with
  | some "T" | some "TRUE" => some true
  | some "F" | some "FALSE" => some false
  | _ => none

/-- The items of a list. -/
def list? : Value → Option (List Value)
  | .list items => some items
  | _ => none

/-- Whether no value is given: `$` or `*`. -/
def isOmitted : Value → Bool
  | .omitted | .derived => true
  | _ => false

mutual
/-- The entities that the value refers to, at any depth, in reading order. -/
def refs : Value → List EntityId
  | .ref id => [id]
  | .list items => refsOf items
  | .typed _ args => refsOf args
  | _ => []

/-- The entities that the values refer to, in reading order. -/
def refsOf : List Value → List EntityId
  | [] => []
  | v :: vs => v.refs ++ refsOf vs
end

end Value

end BuildingModel
