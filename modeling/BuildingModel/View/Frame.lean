import BuildingModel.View.Camera
import BuildingModel.View.Visibility

/-!
# Frames

Drawing a scene through a backend. A batch that the backend refuses is counted and skipped; the frame
goes on. The recorder is a backend that draws nothing and keeps what it was asked to draw.
-/

namespace BuildingModel

/-- Why a backend refuses. -/
inductive RenderError where
  | outOfMemory (requested : Nat)
  | draw (reason : String)
  /-- No frame has been begun. -/
  | noFrame
deriving DecidableEq, Repr, Inhabited

/-- The wording of an error. -/
def RenderError.message : RenderError → String
  | .outOfMemory requested => s!"out of GPU memory uploading {requested} instances"
  | .draw reason => s!"draw failed: {reason}"
  | .noFrame => "no frame in progress"

/-- What a call to a backend gives: whether it refuses, and its state after the call. -/
abbrev BackendResult (σ : Type) := Except RenderError Unit × σ

/-- Something that can draw. -/
structure Backend (α σ : Type) where
  beginFrame : Mat4 α → σ → BackendResult σ
  /-- Take in the objects of the next draw. -/
  upload : List (Instance α) → σ → BackendResult σ
  /-- Draw a geometry once for each object taken in. -/
  draw : Geometry α → Nat → σ → BackendResult σ
  endFrame : σ → BackendResult σ

/-- A draw that was asked for. -/
structure DrawCall where
  hash : UInt64
  instances : Nat
  triangles : Nat
  colors : List Color

/-- A backend that keeps what it was asked to draw. -/
structure Recorder where
  /-- The greatest number of objects taken in at once, if there is one. -/
  capacity : Option Nat
  /-- The digest of a geometry that cannot be drawn. -/
  failHash : Option UInt64
  inFrame : Bool
  /-- The colours of the objects taken in. -/
  pending : List Color
  /-- The draws of this frame or the last one. -/
  calls : List DrawCall
  /-- How many frames have been ended. -/
  frames : Nat

namespace Recorder

variable {α : Type} [Stored α]

/-- A recorder that has seen nothing. -/
def ofCapacity (capacity : Option Nat) : Recorder := ⟨capacity, none, false, [], [], 0⟩

/-- A digest in sixteen digits. -/
def hashText (hash : UInt64) : String :=
  let digits := Nat.toDigits 16 hash.toNat
  String.ofList (List.replicate (16 - digits.length) '0' ++ digits)

/-- Begin a frame; the draws of the last one are forgotten. -/
def beginFrame (r : Recorder) : BackendResult Recorder := (.ok (), { r with inFrame := true, calls := [] })

/-- Take in objects, at most as many as there is room for. -/
def upload (instances : List (Instance α)) (r : Recorder) : BackendResult Recorder :=
  if !r.inFrame then (.error .noFrame, r)
  else if r.capacity.any (· < instances.length) then
    (.error (.outOfMemory instances.length), { r with pending := [] })
  else (.ok (), { r with pending := instances.map (·.color) })

/-- Keep a draw; what was taken in is used up. -/
def draw (g : Geometry α) (count : Nat) (r : Recorder) : BackendResult Recorder :=
  if !r.inFrame then (.error .noFrame, r)
  else if r.failHash = some g.hash then (.error (.draw s!"geometry {hashText g.hash}"), r)
  else
    let call := ⟨g.hash, count, g.triangleCount * count, r.pending⟩
    (.ok (), { r with calls := r.calls ++ [call], pending := [] })

/-- End a frame. -/
def endFrame (r : Recorder) : BackendResult Recorder :=
  if !r.inFrame then (.error .noFrame, r)
  else (.ok (), { r with inFrame := false, frames := r.frames + 1 })

/-- The recorder as a backend. -/
def backend : Backend α Recorder := ⟨fun _ => beginFrame, upload, draw, endFrame⟩

end Recorder

/-- What was drawn in a frame. -/
structure FrameStats where
  high : Nat
  medium : Nat
  low : Nat
  minimal : Nat
  visible : Nat
  culled : Nat
  hidden : Nat
  clipped : Nat
  batches : Nat
  drawCalls : Nat
  failedBatches : Nat
  triangles : Nat
  /-- How long the frame took, in milliseconds, as far as it has been measured. -/
  milliseconds : Float

/-- A frame in which nothing was drawn. -/
def FrameStats.none : FrameStats := ⟨0, 0, 0, 0, 0, 0, 0, 0, 0, 0, 0, 0, 0⟩

/-- What to draw. -/
structure FrameContext (α : Type) where
  scene : Scene α
  viewpoint : Viewpoint α
  thresholds : Thresholds α
  filter : VisibilityFilter α
  selection : List ObjectKey
  /-- The colour of selected objects. -/
  highlight : Color

namespace FrameContext

variable {α σ : Type} [Stored α]

/-- How the scene is looked at. -/
def look (c : FrameContext α) : Look α :=
  ⟨.ofViewProjection c.viewpoint.viewProjection, c.viewpoint.eye, c.thresholds, c.filter⟩

/-- The objects of a batch, with the selected ones in their colour. -/
def highlighted (c : FrameContext α) (b : Batch α) : List (Instance α) :=
  b.instances.map fun i => if c.selection.contains i.object then { i with color := c.highlight } else i

/-- The geometry of a batch. -/
def geometry? (c : FrameContext α) (b : Batch α) : Option (Geometry α) :=
  (c.scene.geometry? b.slot).bind (·.get? b.level)

/-- Draw a batch: the triangles drawn, unless it fails, and the state of the backend. -/
def drawBatch (c : FrameContext α) (backend : Backend α σ) (b : Batch α) (s : σ) : Option Nat × σ :=
  match c.geometry? b with
  | none => (none, s)
  | some g =>
    let instances := c.highlighted b
    match backend.upload instances s with
    | (.error _, s) => (none, s)
    | (.ok (), s) =>
      match backend.draw g instances.length s with
      | (.error _, s) => (none, s)
      | (.ok (), s) => (some (g.triangleCount * instances.length), s)

/-- Draw batches one after the other. -/
def drawBatches (c : FrameContext α) (backend : Backend α σ) : List (Batch α) → σ → List (Option Nat) × σ
  | [], s => ([], s)
  | b :: rest, s =>
    let (drawn, s) := c.drawBatch backend b s
    let (more, s) := c.drawBatches backend rest s
    (drawn :: more, s)

/-- The counts of a frame, given what came of each batch. -/
def stats (v : VisibleSet α) (drawn : List (Option Nat)) : FrameStats where
  high := v.levelCount .high
  medium := v.levelCount .medium
  low := v.levelCount .low
  minimal := v.levelCount .minimal
  visible := v.visible
  culled := v.culled
  hidden := v.hidden
  clipped := v.clipped
  batches := v.batches.length
  drawCalls := drawn.countP (·.isSome)
  failedBatches := drawn.countP (·.isNone)
  triangles := Number.sumOf (·.getD 0) drawn
  milliseconds := 0

/-- Draw a frame. If it cannot be begun, all its batches have failed. -/
def render (c : FrameContext α) (backend : Backend α σ) (s : σ) : FrameStats × σ :=
  let v := c.look.collect c.scene
  match backend.beginFrame c.viewpoint.viewProjection s with
  | (.error _, s) => (stats v (v.batches.map fun _ => none), s)
  | (.ok (), s) =>
    let (drawn, s) := c.drawBatches backend v.batches s
    (stats v drawn, (backend.endFrame s).2)

end FrameContext

/-- The counts of all frames so far. -/
structure FrameMetrics where
  frames : Nat
  meanMilliseconds : Float
  maxMilliseconds : Float
  last : FrameStats

namespace FrameMetrics

/-- No frame yet. -/
def empty : FrameMetrics := ⟨0, 0, 0, .none⟩

/-- Count a frame. -/
def record (m : FrameMetrics) (f : FrameStats) : FrameMetrics where
  frames := m.frames + 1
  meanMilliseconds := m.meanMilliseconds + (f.milliseconds - m.meanMilliseconds) / (m.frames + 1).toFloat
  maxMilliseconds := Scalar.greatest m.maxMilliseconds f.milliseconds
  last := f

end FrameMetrics

end BuildingModel
