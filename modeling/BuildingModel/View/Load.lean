import BuildingModel.Extract.Extraction
import BuildingModel.View.Scene
import BuildingModel.View.Settings
import BuildingModel.Linked.Spatial

/-!
# Loading

From the bytes of a file to a scene: read, link, extract, index. Between the stages the load looks
whether it has been cancelled.
-/

namespace BuildingModel

open Exchange

/-- How long the stages of a load took, in milliseconds. -/
structure StageTimes where
  parse : Float
  extract : Float

/-- What a load has found. -/
structure LoadReport where
  schema : Option String
  entities : Nat
  objects : Nat
  geometries : Nat
  triangles : Nat
  /-- How many metres the length unit of the model is. -/
  unit : Float
  extraction : ExtractionSummary
  log : ProblemLog
  /-- As far as they have been measured. -/
  times : StageTimes

/-- A model that is ready to be shown. -/
structure LoadedModel where
  scene : Scene Float32
  model : LinkedModel
  spatial : SpatialTree
  report : LoadReport

namespace LoadedModel

/-- Put together what the stages have given. -/
def assemble (m : LinkedModel) (x : Extraction) : LoadedModel :=
  let scene := Scene.build x.objects
  { scene := scene
    model := m
    spatial := SpatialTree.build m
    report :=
      { schema := m.header.schema?
        entities := m.size
        objects := scene.objectCount
        geometries := scene.geometryCount
        triangles := scene.triangleCount
        unit := x.unit
        extraction := x.summary
        log := m.log.merge x.log
        times := ⟨0, 0⟩ } }

/-- Extract and index a linked model, after the first two looks. An overflow comes out as an error of a shape. -/
def ofLinked (m : LinkedModel) (s : ViewSettings) (cancelled : CancelSchedule) (p : Progress) :
    Except ViewError LoadedModel × Progress :=
  let (result, trail) := m.extract s.extraction .standard (fun look => cancelled (look + 2)) p
  let p := trail.getLastD p
  match result with
  | .error e => (.error (.ofShape e), p)
  | .ok x =>
    if cancelled (trail.length + 2) then (.error .cancelled, p)
    else (.ok (assemble m x), p.enter .done)

/-- Load a file. The answer comes with the stage that was reached. -/
def ofBytes (bytes : List UInt8) (s : ViewSettings) (cancelled : CancelSchedule) (p : Progress) :
    Except ViewError LoadedModel × Progress :=
  let p := p.enter .parsing
  match ExchangeFile.ofBytes bytes s.maxProblems with
  | .error e => (.error (.read e), p)
  | .ok file =>
    if cancelled 0 then (.error .cancelled, p)
    else
      let p := p.enter .resolving
      if cancelled 1 then (.error .cancelled, p)
      else ofLinked file.link s cancelled (p.enter .extracting)

end LoadedModel

end BuildingModel
