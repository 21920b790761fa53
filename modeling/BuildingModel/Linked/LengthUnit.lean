import BuildingModel.Linked.Model

/-!
# The length unit of a model

How many metres one unit of length is. The project names its units; a unit is metric with a decimal
prefix, or converted from another unit by a factor.
-/

namespace BuildingModel

/-- The factor of a decimal prefix; an unknown one changes nothing. -/
def prefixFactor (name : String) : Float :=
  match name with
  | "ATTO" => 1e-18
  | "FEMTO" => 1e-15
  | "PICO" => 1e-12
  | "NANO" => 1e-9
  | "MICRO" => 1e-6
  | "MILLI" => 1e-3
  | "CENTI" => 1e-2
  | "DECI" => 1e-1
  | "DECA" => 1e1
  | "HECTO" => 1e2
  | "KILO" => 1e3
  | "MEGA" => 1e6
  | "GIGA" => 1e9
  | "TERA" => 1e12
  | "PETA" => 1e15
  | "EXA" => 1e18
  | _ => 1.0

namespace LinkedModel

/-- Whether a unit measures length. -/
def isLengthUnit (unit : LinkedEntity) : Bool :=
  (unit.param? 1).bind (·.enum?) = some "LENGTHUNIT"

/-- How many metres a unit is, if it measures length. Of a chain of conversions `links` units are
followed; what lies beyond counts as a metre. -/
def unitFactor? (m : LinkedModel) : (links : Nat) → LinkedEntity → Option Float
  | 0, _ => none
  | links + 1, unit =>
    if !isLengthUnit unit then none
    else match unit.kind with
      | .siUnit =>
        match (unit.param? 2).bind (·.enum?) with
        | some name => some (prefixFactor name)
        | none => some 1.0
      | .conversionBasedUnit => do
        let measure ← m.follow? unit 3
        let value ← measure.number? 0
        let base := ((m.follow? measure 1).bind (m.unitFactor? links)).getD 1.0
        return value * base
      | _ => none

/-- How many units a chain of conversions may have. -/
def unitChainLimit : Nat := 5

/-- The units that the first project assigns. -/
def assignedUnits (m : LinkedModel) : List LinkedEntity :=
  match (m.firstOfKind? .project).bind (m.follow? · 8) with
  | some assignment =>
    if assignment.kind = .unitAssignment then m.followAll ((assignment.list? 0).getD []) else []
  | none => []

/-- How many metres the length unit of the model is: that of the first length unit of the project, and
one if there is none. -/
def lengthUnit (m : LinkedModel) : Float :=
  (m.assignedUnits.findSome? (m.unitFactor? unitChainLimit)).getD 1.0

end LinkedModel

end BuildingModel
