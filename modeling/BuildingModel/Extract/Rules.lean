import BuildingModel.Problem
import BuildingModel.Shape.Geometry

/-!
# Rules of extraction

Which kinds of entities give a shape, in which colour, and whether the shape is their own or that of
the representation of a product.
-/

namespace BuildingModel

/-- Where the shape of an entity comes from. -/
inductive Strategy where
  /-- From the placement and the representation of a product. -/
  | product
  /-- From the entity itself. -/
  | item
deriving DecidableEq, Repr, Inhabited

/-- How a kind of entities is extracted. -/
structure ExtractionRule where
  color : Color
  strategy : Strategy
deriving DecidableEq, Repr, Inhabited

/-- The settings of an extraction. -/
structure ExtractionSettings where
  rules : List (Kind × ExtractionRule)
  /-- How many entities are extracted between two looks at whether to go on. -/
  batchSize : Nat
  /-- How many problems are kept with their messages. -/
  messageLimit : Nat

namespace ExtractionSettings

/-- The colour of kinds without a rule. -/
def defaultColor : Color := ⟨0.6, 0.6, 0.6⟩

/-- How many entities are extracted between two looks, if nothing else is said. -/
def defaultBatchSize : Nat := 256

/-- Settings without any rule. -/
def empty : ExtractionSettings := ⟨[], defaultBatchSize, defaultProblemLimit⟩

/-- The settings without a rule for a kind. -/
def removeRule (s : ExtractionSettings) (kind : Kind) : ExtractionSettings :=
  { s with rules := s.rules.filter fun (k, _) => k ≠ kind }

/-- The settings with a rule for a kind, in place of an earlier one. -/
def setRule (s : ExtractionSettings) (kind : Kind) (rule : ExtractionRule) : ExtractionSettings :=
  { s with rules := (kind, rule) :: (s.removeRule kind).rules }

/-- The rule for a kind. -/
def rule? (s : ExtractionSettings) (kind : Kind) : Option ExtractionRule := s.rules.lookup kind

/-- The colour of a kind. -/
def color (s : ExtractionSettings) (kind : Kind) : Color := ((s.rule? kind).map (·.color)).getD defaultColor

/-- The colours of products. -/
def productColors : List (Kind × Color) := [
  (.wall, ⟨0.85, 0.85, 0.85⟩),
  (.wallStandardCase, ⟨0.85, 0.85, 0.85⟩),
  (.slab, ⟨0.75, 0.70, 0.65⟩),
  (.beam, ⟨0.4, 0.6, 0.8⟩),
  (.column, ⟨0.3, 0.5, 0.7⟩),
  (.roof, ⟨0.7, 0.35, 0.3⟩),
  (.stair, ⟨0.7, 0.65, 0.6⟩),
  (.railing, ⟨0.5, 0.5, 0.55⟩),
  (.covering, ⟨0.8, 0.78, 0.72⟩),
  (.curtainWall, ⟨0.55, 0.7, 0.8⟩),
  (.plate, ⟨0.6, 0.75, 0.85⟩),
  (.member, ⟨0.45, 0.5, 0.55⟩),
  (.footing, ⟨0.55, 0.55, 0.5⟩),
  (.door, ⟨0.6, 0.45, 0.3⟩),
  (.window, ⟨0.6, 0.8, 0.9⟩),
  (.buildingElementProxy, defaultColor),
  (.furnishingElement, ⟨0.65, 0.5, 0.4⟩)]

/-- The colours of items that stand alone. -/
def itemColors : List (Kind × Color) := [
  (.polyline, ⟨0.9, 0.3, 0.3⟩),
  (.indexedPolyCurve, ⟨0.9, 0.3, 0.3⟩),
  (.faceOuterBound, ⟨0.3, 0.8, 0.3⟩),
  (.extrudedAreaSolid, ⟨0.7, 0.7, 0.7⟩),
  (.triangulatedFaceSet, ⟨0.7, 0.7, 0.7⟩),
  (.facetedBrep, ⟨0.7, 0.7, 0.7⟩),
  (.shellBasedSurfaceModel, ⟨0.7, 0.7, 0.7⟩)]

/-- Rules for all kinds that are usually shown. -/
def standard : ExtractionSettings :=
  let products := productColors.map fun (kind, color) => (kind, ExtractionRule.mk color .product)
  let items := itemColors.map fun (kind, color) => (kind, ExtractionRule.mk color .item)
  { empty with rules := products ++ items }

end ExtractionSettings

end BuildingModel
