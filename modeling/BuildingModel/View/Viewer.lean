import BuildingModel.View.Measurement
import BuildingModel.View.Statistics

/-!
# Viewer

The viewer as a state and what each call does to it. A load in the background is a number and what has
come of it so far; a newer load takes its place, and whatever an older one still sends is lost. A load
that fails leaves the model that is shown as it was.
-/

namespace BuildingModel

/-- What the viewer is doing. -/
inductive ViewerState where
  | idle
  | loading
  | loaded
  | rendering
  | loadFailed
deriving DecidableEq, Repr, Inhabited

/-- The name of a state. -/
def ViewerState.name : ViewerState → String
  | .idle => "idle"
  | .loading => "loading"
  | .loaded => "loaded"
  | .rendering => "rendering"
  | .loadFailed => "load_failed"

/-- What a load gives. -/
abbrev LoadResult := Except ViewError LoadedModel

/-- What has come of a load in the background. -/
inductive LoadChannel where
  | running
  | sent (result : LoadResult)
  /-- The task has ended without a result. -/
  | vanished

/-- The result of a load in the background, once it has ended. -/
def LoadChannel.result? : LoadChannel → Option LoadResult
  | .running => none
  | .sent result => some result
  | .vanished => some (.error .disconnected)

/-- A load in the background. -/
structure PendingLoad where
  /-- The number of the load. -/
  number : Nat
  channel : LoadChannel

/-- The state of the viewer, with a backend in state `σ`. -/
structure Viewer (σ : Type) where
  settings : ViewSettings
  backend : σ
  state : ViewerState
  /-- The state to go back to when a load ends without saying anything about the file. -/
  resumeState : ViewerState
  scene : Scene Float32
  model : LinkedModel
  spatial : SpatialTree
  report : Option LoadReport
  lastError : Option String
  pending : Option PendingLoad
  /-- How many loads have been started. -/
  loads : Nat
  camera : Camera
  filter : VisibilityFilter Float32
  selection : List ObjectKey
  measurement : Measurement
  measuring : Bool
  metrics : FrameMetrics

namespace Viewer

variable {σ : Type}

/-- A viewer that shows nothing. -/
def start (backend : σ) (settings : ViewSettings) : Viewer σ where
  settings := settings
  backend := backend
  state := .idle
  resumeState := .idle
  scene := .empty
  model := {}
  spatial := .build {}
  report := none
  lastError := none
  pending := none
  loads := 0
  camera := .ofSize settings.width settings.height
  filter := .empty
  selection := []
  measurement := .empty
  measuring := false
  metrics := .empty

/-! ## Loading -/

/-- Start to load, whatever was being loaded before. -/
def beginLoading (v : Viewer σ) (pending : Option PendingLoad) : Viewer σ :=
  { v with
    pending := pending
    loads := v.loads + 1
    resumeState := if v.state = .loading then v.resumeState else v.state
    state := .loading }

/-- Start to load in the background. -/
def load (v : Viewer σ) : Viewer σ := v.beginLoading (some ⟨v.loads, .running⟩)

/-- Something comes of a load in the background. Only the newest load is still listened to, and only
until it has ended. -/
def receive (v : Viewer σ) (number : Nat) (outcome : LoadChannel) : Viewer σ :=
  match v.pending with
  | some ⟨n, .running⟩ => if n = number then { v with pending := some ⟨n, outcome⟩ } else v
  | _ => v

/-- Show a model. What was selected or hidden in the old one means nothing in the new one. -/
def install (v : Viewer σ) (m : LoadedModel) : Viewer σ :=
  { v with
    scene := m.scene
    model := m.model
    spatial := m.spatial
    report := some m.report
    lastError := none
    selection := []
    filter := v.filter.showAll
    camera := v.camera.fitTo m.scene.bounds
    state := .loaded }

/-- Take in the result of the load that has ended. -/
def finishLoad (v : Viewer σ) (result : LoadResult) : Except ViewError Unit × Viewer σ :=
  match result with
  | .ok m => (.ok (), v.install m)
  | .error e =>
    if e.isLoadFailure then
      (.error e, { v with lastError := some e.message, state := .loadFailed })
    else (.error e, { v with state := v.resumeState })

/-- Load a file and wait for it. -/
def loadNow (v : Viewer σ) (bytes : List UInt8) : Except ViewError Unit × Viewer σ :=
  (v.beginLoading none).finishLoad (LoadedModel.ofBytes bytes v.settings .never .start).1

/-- Take in the load in the background if it has ended. -/
def poll (v : Viewer σ) : Option (Except ViewError Unit) × Viewer σ :=
  match v.pending.bind (·.channel.result?) with
  | none => (none, v)
  | some result =>
    let (outcome, v) := { v with pending := none }.finishLoad result
    (some outcome, v)

/-- Wait for the load in the background; if it is still running, it will end with `outcome`. -/
def wait (v : Viewer σ) (outcome : LoadResult) : Option (Except ViewError Unit) × Viewer σ :=
  match v.pending with
  | none => (none, v)
  | some p =>
    let (outcome, v) := { v with pending := none }.finishLoad (p.channel.result?.getD outcome)
    (some outcome, v)

/-! ## Frames -/

/-- What to draw. -/
def frameContext (v : Viewer σ) : FrameContext Float32 :=
  ⟨v.scene, v.camera.viewpoint, v.settings.thresholds, v.filter, v.selection, v.settings.highlight⟩

/-- Move the camera and draw a frame. A load that has ended is taken in first. -/
def frame (b : Backend Float32 σ) (v : Viewer σ) (inputs : List CameraInput) : FrameStats × Viewer σ :=
  let v := v.poll.2
  let v := { v with camera := inputs.foldl Camera.apply v.camera }
  let (stats, backend) := v.frameContext.render b v.backend
  (stats, { v with
    backend := backend
    metrics := v.metrics.record stats
    state := if v.state = .loaded then .rendering else v.state })

/-- Stop drawing; the model stays. -/
def pause (v : Viewer σ) : Viewer σ := if v.state = .rendering then { v with state := .loaded } else v

/-- Bring the whole model into view. -/
def fitCamera (v : Viewer σ) : Viewer σ := { v with camera := v.camera.fitTo v.scene.bounds }

/-! ## Selection -/

/-- What is under a pixel. -/
def pick? (v : Viewer σ) (pixel : Vec2 Float32) : Option (PickHit Float32) :=
  v.camera.pick? v.scene v.settings.thresholds v.filter pixel

/-- Select an object, if it is in the scene. -/
def select (v : Viewer σ) (key : ObjectKey) : Viewer σ :=
  if (v.scene.object? key).isSome then { v with selection := v.selection.insert key } else v

/-- Select an object, or take it out of the selection. -/
def toggle (v : Viewer σ) (key : ObjectKey) : Viewer σ :=
  if v.selection.contains key then { v with selection := v.selection.filter (· ≠ key) } else v.select key

/-- Select nothing. -/
def clearSelection (v : Viewer σ) : Viewer σ := { v with selection := [] }

/-- Select what is under a pixel, and nothing else. -/
def selectAt (v : Viewer σ) (pixel : Vec2 Float32) : Option (PickHit Float32) × Viewer σ :=
  let hit := v.pick? pixel
  (hit, { v with selection := (hit.map (·.object)).toList })

/-- The entities that are selected. -/
def selectedEntities (v : Viewer σ) : List EntityId :=
  ((v.selection.filterMap v.scene.object?).map (·.entity)).mergeSort (· ≤ ·)

/-! ## Visibility -/

/-- Change what is hidden or cut away. -/
def changeFilter (v : Viewer σ) (f : VisibilityFilter Float32 → VisibilityFilter Float32) : Viewer σ :=
  { v with filter := f v.filter }

/-- Hide a part of the building. The answer comes with the number of its elements. -/
def hideSubtree (v : Viewer σ) (node : EntityId) : Nat × Viewer σ :=
  let (filter, count) := v.filter.hideSubtree v.spatial node
  (count, { v with filter := filter })

/-! ## Measuring -/

/-- Begin or end to measure. At a change the points so far are forgotten. -/
def setMeasuring (v : Viewer σ) (enabled : Bool) : Viewer σ :=
  { v with
    measurement := if enabled = v.measuring then v.measurement else .empty
    measuring := enabled }

/-- What is under a pixel; while measuring, its point is added. -/
def measureAt (v : Viewer σ) (pixel : Vec2 Float32) : Option (PickHit Float32) × Viewer σ :=
  match v.pick? pixel with
  | none => (none, v)
  | some hit =>
    (some hit, if v.measuring then { v with measurement := v.measurement.add hit } else v)

/-- Forget the points so far. -/
def resetMeasurement (v : Viewer σ) : Viewer σ := { v with measurement := .empty }

/-! ## Questions -/

/-- The objects that are drawn for some entities. -/
def objectsOf (v : Viewer σ) (ids : List EntityId) : List ObjectKey := ids.filterMap v.scene.find?

/-- The counts of the model and of the frames so far. -/
def stats (v : Viewer σ) : ModelStats := .ofReport v.report v.metrics

end Viewer

end BuildingModel
