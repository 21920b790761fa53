/-!
# Progress

How far a load has come: the stage it is in, and how much of the stage is done.
-/

namespace BuildingModel

/-- The stages of a load, in order. -/
inductive LoadStage where
  | queued
  | parsing
  | resolving
  | extracting
  | indexing
  | done
deriving DecidableEq, Repr, Inhabited

/-- The name of a stage. -/
def LoadStage.name : LoadStage → String
  | .queued => "queued"
  | .parsing => "parsing"
  | .resolving => "resolving"
  | .extracting => "extracting"
  | .indexing => "indexing"
  | .done => "done"

/-- How far a load has come. -/
structure Progress where
  stage : LoadStage
  processed : UInt64
  total : UInt64
deriving DecidableEq, Repr, Inhabited

namespace Progress

/-- Nothing has been done. -/
def start : Progress := ⟨.queued, 0, 0⟩

/-- Enter a stage. -/
def enter (p : Progress) (stage : LoadStage) : Progress := { p with stage }

/-- Begin to count units. -/
def begin (p : Progress) (total : UInt64) : Progress := { p with processed := 0, total }

/-- Count some units as done. -/
def advance (p : Progress) (units : UInt64) : Progress := { p with processed := p.processed + units }

/-- The part of the units that is done, at most one. -/
def fraction (p : Progress) : Float32 :=
  if p.total = 0 then 0
  else
    let part := p.processed.toFloat32 / p.total.toFloat32
    if 1 < part then 1 else part

end Progress

end BuildingModel
