import BuildingModel.Shape.Error

/-!
# Errors of the viewer

What can go wrong while a model is loaded or settings are made, and the wording of it.
-/

namespace BuildingModel

open Exchange

/-- What is wrong. -/
inductive ViewError where
  | read (error : ReadError)
  | shape (error : ShapeError)
  /-- A newer load took the place of this one. -/
  | cancelled
  /-- A load in the background ended without a result. -/
  | disconnected
  | settings (reason : String)
deriving DecidableEq, Repr, Inhabited

namespace ViewError

/-- The wording of an error. -/
def message : ViewError → String
  | .read error => s!"load failed: {error.message}"
  | .shape error => s!"geometry extraction failed: {error.message}"
  | .cancelled => "load cancelled"
  | .disconnected => "background load ended without a result"
  | .settings reason => s!"invalid configuration: {reason}"

/-- An error of a shape, seen by the viewer. -/
def ofShape : ShapeError → ViewError
  | .cancelled => .cancelled
  | .file error => .read error
  | error => .shape error

/-- Whether the error says something about the file. -/
def isLoadFailure : ViewError → Bool
  | .cancelled | .disconnected => false
  | _ => true

end ViewError

end BuildingModel
