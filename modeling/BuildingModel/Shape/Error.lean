import BuildingModel.Exchange.Error
import BuildingModel.Kind

/-!
# Errors of shapes

Everything that can go wrong while the shape of an entity is built, and the wording of it.
-/

namespace BuildingModel

open Exchange

/-- What is wrong with a shape. -/
inductive ShapeError where
  | triangulation (reason : String)
  | invalidProfile (reason : String)
  | invalidExtrusion (reason : String)
  | emptyMesh (reason : String)
  | invalidMesh (reason : String)
  /-- A parameter that the shape needs is not there. -/
  | missingParam (entity : EntityId) (place : Nat)
  /-- A reference leads to an entity of another kind. -/
  | unexpectedKind (entity : EntityId) (expected : String) (found : Kind)
  /-- Nothing is known about shapes of this kind. -/
  | unsupported (kind : Kind)
  | geometry (reason : String)
  | cancelled
  | file (error : ReadError)
  /-- A difference left the 64 bits in which it is taken. Whoever goes on without a shape that cannot be made
  does not go on after this. -/
  | overflow
deriving DecidableEq, Repr, Inhabited

/-- The wording of an error. -/
def ShapeError.message : ShapeError → String
  | .triangulation reason => s!"Triangulation failed: {reason}"
  | .invalidProfile reason => s!"Invalid profile: {reason}"
  | .invalidExtrusion reason => s!"Invalid extrusion parameters: {reason}"
  | .emptyMesh reason => s!"Empty mesh: {reason}"
  | .invalidMesh reason => s!"Invalid mesh: {reason}"
  | .missingParam entity place => s!"#{entity}: missing attribute {place}"
  | .unexpectedKind entity expected found => s!"#{entity}: expected {expected}, found {found.name}"
  | .unsupported kind => s!"No processor for {kind.name}"
  | .geometry reason => s!"Geometry error: {reason}"
  | .cancelled => "Extraction cancelled"
  | .file error => s!"Core parser error: {error.message}"
  | .overflow => "attempt to subtract with overflow"

end BuildingModel
