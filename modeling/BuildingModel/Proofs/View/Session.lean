import BuildingModel.View.Viewer
import Mathlib.Data.List.Basic

/-!
# Sessions

A session is a viewer together with the tasks of all the loads it was ever asked for. Calls to the viewer
and the ends of the tasks come in any order: a task may end before, between or after later loads, and the
viewer may look at any time or never.

Main result: `Session.run_orderly`. Whatever the order, a model is shown only while its load is the newest
one, models are shown in the order of their loads and each at most once, and a load that ends with an error
leaves everything that is shown, selected, hidden or measured as it was.
-/

namespace BuildingModel

variable {σ : Type}

/-- The calls that neither load nor draw. -/
inductive Adjustment where
  | pause
  | fitCamera
  | moveCamera (f : Camera → Camera)
  | select (key : ObjectKey)
  | toggle (key : ObjectKey)
  | clearSelection
  | selectAt (pixel : Vec2 Float32)
  | changeFilter (f : VisibilityFilter Float32 → VisibilityFilter Float32)
  | hideSubtree (node : EntityId)
  | setMeasuring (enabled : Bool)
  | measureAt (pixel : Vec2 Float32)
  | resetMeasurement
  | changeMeasurement (f : Measurement → Measurement)

/-- What a call that neither loads nor draws makes of the viewer. -/
def Adjustment.apply (v : Viewer σ) : Adjustment → Viewer σ
  | .pause => v.pause
  | .fitCamera => v.fitCamera
  | .moveCamera f => { v with camera := f v.camera }
  | .select key => v.select key
  | .toggle key => v.toggle key
  | .clearSelection => v.clearSelection
  | .selectAt pixel => (v.selectAt pixel).2
  | .changeFilter f => v.changeFilter f
  | .hideSubtree node => (v.hideSubtree node).2
  | .setMeasuring enabled => v.setMeasuring enabled
  | .measureAt pixel => (v.measureAt pixel).2
  | .resetMeasurement => v.resetMeasurement
  | .changeMeasurement f => { v with measurement := f v.measurement }

/-- What the viewer shows. -/
structure Shown where
  scene : Scene Float32
  model : LinkedModel
  spatial : SpatialTree
  report : Option LoadReport

/-- A viewer shows nothing at first. -/
def Shown.nothing : Shown := ⟨.empty, {}, .build {}, none⟩

def Shown.ofLoaded (m : LoadedModel) : Shown := ⟨m.scene, m.model, m.spatial, some m.report⟩

/-- What is shown after a load has ended. -/
def Shown.after (old : Shown) : LoadResult → Shown
  | .ok m => .ofLoaded m
  | .error _ => old

def Viewer.shown (v : Viewer σ) : Shown := ⟨v.scene, v.model, v.spatial, v.report⟩

/-- A call to the viewer, or the end of the task of a load. -/
inductive Event where
  | load
  | loadNow (bytes : List UInt8)
  | poll
  | wait
  | frame (inputs : List CameraInput)
  | adjust (a : Adjustment)
  | sends (number : Nat) (result : LoadResult)
  | vanishes (number : Nat)

/-- Whether an event asks for a load. -/
def Event.isLoad : Event → Bool
  | .load | .loadNow _ => true
  | _ => false

/-- How the camera is moved in an event by itself. -/
def Event.inputs : Event → List CameraInput
  | .frame inputs => inputs
  | _ => []

/-- A load whose model was shown. -/
structure Installation where
  /-- The number of the load. -/
  load : Nat
  model : LoadedModel

/-- The load that a viewer takes in at an event, and how it has ended. -/
def Event.finished? (v : Viewer σ) : Event → Option (Nat × LoadResult)
  | .loadNow bytes => some (v.loads, (LoadedModel.ofBytes bytes v.settings .never .start).1)
  | .poll | .wait | .frame _ => v.pending.bind fun p => p.channel.result?.map fun r => (p.number, r)
  | _ => none

/-- The installation that the end of a load brings. -/
def Installation.ofResult? : Nat × LoadResult → Option Installation
  | (number, .ok m) => some ⟨number, m⟩
  | (_, .error _) => none

/-- What a viewer installs at an event. -/
def Event.installed? (v : Viewer σ) (e : Event) : Option Installation :=
  (e.finished? v).bind Installation.ofResult?

/-- A viewer, and what has come of the loads that it was asked for, in their order. -/
structure Session (σ : Type) where
  viewer : Viewer σ
  tasks : List LoadChannel

namespace Session

/-- One event of a session. A load on the spot is a task that has ended when the call returns; to wait for
a load is to be held up until its task has ended. -/
inductive Step (b : Backend Float32 σ) : Session σ → Event → Session σ → Prop where
  | load {v tasks} : Step b ⟨v, tasks⟩ .load ⟨v.load, tasks ++ [.running]⟩
  | loadNow {v tasks} (bytes : List UInt8) :
      Step b ⟨v, tasks⟩ (.loadNow bytes)
        ⟨(v.loadNow bytes).2, tasks ++ [.sent (LoadedModel.ofBytes bytes v.settings .never .start).1]⟩
  | poll {v tasks} : Step b ⟨v, tasks⟩ .poll ⟨v.poll.2, tasks⟩
  | wait {v tasks} (outcome : LoadResult) :
      (∀ p ∈ v.pending, p.channel.result?.isSome) → Step b ⟨v, tasks⟩ .wait ⟨(v.wait outcome).2, tasks⟩
  | frame {v tasks} (inputs : List CameraInput) :
      Step b ⟨v, tasks⟩ (.frame inputs) ⟨(v.frame b inputs).2, tasks⟩
  | adjust {v tasks} (a : Adjustment) : Step b ⟨v, tasks⟩ (.adjust a) ⟨a.apply v, tasks⟩
  | sends {v tasks} (k : Nat) (r : LoadResult) : tasks[k]? = some .running →
      Step b ⟨v, tasks⟩ (.sends k r) ⟨v.receive k (.sent r), tasks.set k (.sent r)⟩
  | vanishes {v tasks} (k : Nat) : tasks[k]? = some .running →
      Step b ⟨v, tasks⟩ (.vanishes k) ⟨v.receive k .vanished, tasks.set k .vanished⟩

/-- The sessions that begin with a viewer `v`, with their events and with what was installed. -/
inductive Run (b : Backend Float32 σ) (v : Viewer σ) :
    List Event → List Installation → Session σ → Prop where
  | start : Run b v [] [] ⟨v, []⟩
  | step {es log s e s'} : Run b v es log s → Step b s e s' →
      Run b v (es ++ [e]) (log ++ (e.installed? s.viewer).toList) s'

variable {b : Backend Float32 σ} {v v' : Viewer σ} {tasks : List LoadChannel} {s s' : Session σ}
  {log : List Installation} {es : List Event} {e : Event}

/-! ## What the calls do to the loads -/

/-- Two viewers that differ only in what has nothing to do with loads. -/
structure SameLoads (v v' : Viewer σ) : Prop where
  pending : v'.pending = v.pending
  loads : v'.loads = v.loads
  shown : v'.shown = v.shown

/-- Selecting has nothing to do with loads. -/
lemma select_sameLoads (v : Viewer σ) (key : ObjectKey) : SameLoads v (v.select key) := by
  unfold Viewer.select
  split
  · exact ⟨rfl, rfl, rfl⟩
  · exact ⟨rfl, rfl, rfl⟩

/-- Nor has measuring. -/
lemma measureAt_sameLoads (v : Viewer σ) (pixel : Vec2 Float32) :
    SameLoads v (v.measureAt pixel).2 := by
  unfold Viewer.measureAt
  cases v.pick? pixel with
  | none => exact ⟨rfl, rfl, rfl⟩
  | some hit =>
    dsimp only
    split
    · exact ⟨rfl, rfl, rfl⟩
    · exact ⟨rfl, rfl, rfl⟩

/-- Nor has any adjustment. -/
lemma adjust_sameLoads (a : Adjustment) (v : Viewer σ) : SameLoads v (a.apply v) := by
  cases a with
  | pause =>
    show SameLoads v v.pause
    unfold Viewer.pause
    split
    · exact ⟨rfl, rfl, rfl⟩
    · exact ⟨rfl, rfl, rfl⟩
  | select key => exact select_sameLoads v key
  | toggle key =>
    show SameLoads v (v.toggle key)
    unfold Viewer.toggle
    split
    · exact ⟨rfl, rfl, rfl⟩
    · exact select_sameLoads v key
  | measureAt pixel => exact measureAt_sameLoads v pixel
  | fitCamera | moveCamera | clearSelection | selectAt | changeFilter | hideSubtree | setMeasuring
  | resetMeasurement | changeMeasurement => exact ⟨rfl, rfl, rfl⟩

/-- Nor has drawing, after the poll before it. -/
lemma frame_sameLoads (b : Backend Float32 σ) (v : Viewer σ) (inputs : List CameraInput) :
    SameLoads v.poll.2 (v.frame b inputs).2 := ⟨rfl, rfl, rfl⟩

/-- An error changes nothing but what the viewer says it is doing. -/
lemma finishLoad_error (v : Viewer σ) (e : ViewError) :
    ∃ state lastError, (v.finishLoad (.error e)).2 = { v with state := state, lastError := lastError } := by
  by_cases he : e.isLoadFailure
  · exact ⟨.loadFailed, some e.message, by simp [Viewer.finishLoad, he]⟩
  · exact ⟨v.resumeState, v.lastError, by simp [Viewer.finishLoad, he]⟩

/-- The end of a load leaves the load that is waited for. -/
lemma finishLoad_pending (v : Viewer σ) (r : LoadResult) :
    (v.finishLoad r).2.pending = v.pending := by
  cases r with
  | ok m => rfl
  | error e =>
    obtain ⟨_, _, hv⟩ := finishLoad_error v e
    rw [hv]

/-- It leaves the number of loads. -/
lemma finishLoad_loads (v : Viewer σ) (r : LoadResult) : (v.finishLoad r).2.loads = v.loads := by
  cases r with
  | ok m => rfl
  | error e =>
    obtain ⟨_, _, hv⟩ := finishLoad_error v e
    rw [hv]

/-- What is shown after a load follows from what the load gave. -/
lemma finishLoad_shown (v : Viewer σ) (r : LoadResult) :
    (v.finishLoad r).2.shown = v.shown.after r := by
  cases r with
  | ok m => rfl
  | error e =>
    obtain ⟨_, _, hv⟩ := finishLoad_error v e
    rw [hv]
    rfl

/-- A poll takes in a result that has come. -/
lemma poll_of_result {p : PendingLoad} {r : LoadResult} (hp : v.pending = some p)
    (hr : p.channel.result? = some r) : v.poll.2 = ({ v with pending := none }.finishLoad r).2 := by
  simp only [Viewer.poll, hp, Option.bind_some, hr]

/-- Without a result a poll does nothing. -/
lemma poll_of_none (h : v.pending.bind (·.channel.result?) = none) : v.poll.2 = v := by
  simp only [Viewer.poll, h]

/-- To wait for a load that has ended is to look at it. -/
lemma wait_eq_poll (outcome : LoadResult) (h : ∀ p ∈ v.pending, p.channel.result?.isSome) :
    (v.wait outcome).2 = v.poll.2 := by
  cases hp : v.pending with
  | none => simp only [Viewer.wait, Viewer.poll, hp, Option.bind_none]
  | some p =>
    obtain ⟨r, hr⟩ := Option.isSome_iff_exists.mp (h p hp)
    rw [poll_of_result hp hr]
    simp only [Viewer.wait, hp, hr, Option.getD_some]

/-- A load on the spot is a load in the background that ends at once and is looked at. -/
lemma loadNow_eq (v : Viewer σ) (bytes : List UInt8) :
    (v.loadNow bytes).2 = (v.load.receive v.loads
      (.sent (LoadedModel.ofBytes bytes v.settings .never .start).1)).poll.2 := by
  rw [poll_of_result (p := ⟨v.loads, .sent (LoadedModel.ofBytes bytes v.settings .never .start).1⟩)
    (by simp [Viewer.load, Viewer.beginLoading, Viewer.receive]) rfl]
  simp [Viewer.load, Viewer.beginLoading, Viewer.receive, Viewer.loadNow]

/-- A poll takes in the load that is waited for, if its result has come. -/
lemma finished?_poll_eq_some {finished : Nat × LoadResult} :
    Event.poll.finished? v = some finished ↔
      ∃ p, v.pending = some p ∧ ∃ r, p.channel.result? = some r ∧ (p.number, r) = finished := by
  simp [Event.finished?, Option.bind_eq_some_iff]

/-- It takes in nothing if no result has come. -/
lemma finished?_poll_eq_none :
    Event.poll.finished? v = none ↔ v.pending.bind (·.channel.result?) = none := by
  cases hp : v.pending with
  | none => simp [Event.finished?, hp]
  | some p => simp [Event.finished?, hp]

/-! ## The order of the loads -/

/-- What is shown after some installations. -/
def shownAfter (log : List Installation) : Shown :=
  (log.getLast?.map fun i => Shown.ofLoaded i.model).getD .nothing

/-- The loads of a session are in order: the viewer listens to the newest task at most and knows what has
come of it, and what was installed was sent by older tasks. -/
structure Ordered (log : List Installation) (s : Session σ) : Prop where
  loads : s.viewer.loads = s.tasks.length
  newest : ∀ p ∈ s.viewer.pending, p.number + 1 = s.tasks.length
  channel : ∀ p ∈ s.viewer.pending, s.tasks[p.number]? = some p.channel
  sorted : log.Pairwise (·.load < ·.load)
  older : ∀ i ∈ log, ∀ p ∈ s.viewer.pending, i.load < p.number
  sent : ∀ i ∈ log, s.tasks[i.load]? = some (.sent (.ok i.model))
  shown : s.viewer.shown = shownAfter log

namespace Ordered

/-- A session starts in order. -/
lemma start (backend : σ) (settings : ViewSettings) : Ordered [] ⟨.start backend settings, []⟩ where
  loads := rfl
  newest := by intro p hp; cases hp
  channel := by intro p hp; cases hp
  sorted := .nil
  older := by intro i hi; cases hi
  sent := by intro i hi; cases hi
  shown := rfl

/-- What was installed had been asked for. -/
lemma lt_length (h : Ordered log s) {i : Installation} (hi : i ∈ log) : i.load < s.tasks.length :=
  (List.getElem?_eq_some_iff.mp (h.sent i hi)).1

/-- The order does not depend on what has nothing to do with loads. -/
lemma sameLoads (h : Ordered log ⟨v, tasks⟩) (hs : SameLoads v v') : Ordered log ⟨v', tasks⟩ where
  loads := hs.loads.trans h.loads
  newest := by intro p hp; exact h.newest p (hs.pending ▸ hp)
  channel := by intro p hp; exact h.channel p (hs.pending ▸ hp)
  sorted := h.sorted
  older := by intro i hi p hp; exact h.older i hi p (hs.pending ▸ hp)
  sent := h.sent
  shown := hs.shown.trans h.shown

/-- A new load takes the place of the one that was listened to. -/
lemma load (h : Ordered log ⟨v, tasks⟩) : Ordered log ⟨v.load, tasks ++ [.running]⟩ := by
  have hloads : v.loads = tasks.length := h.loads
  have hpending : ∀ p ∈ v.load.pending, p = ⟨tasks.length, .running⟩ := by
    intro p hp
    have hp : some ⟨v.loads, .running⟩ = some p := hp
    rw [← hloads]
    exact (Option.some.inj hp).symm
  constructor
  case loads =>
    show v.loads + 1 = _
    simp [hloads]
  case newest =>
    intro p hp
    simp [hpending p hp]
  case channel =>
    intro p hp
    simp [hpending p hp]
  case sorted => exact h.sorted
  case older =>
    intro i hi p hp
    rw [hpending p hp]
    exact h.lt_length hi
  case sent =>
    intro i hi
    show (tasks ++ [.running])[i.load]? = _
    rw [List.getElem?_append_left (h.lt_length hi)]
    exact h.sent i hi
  case shown => exact h.shown

/-- What comes of a task is noticed by the viewer exactly if it listens to this task. -/
lemma receive (h : Ordered log ⟨v, tasks⟩) {k : Nat} (hk : tasks[k]? = some .running)
    (outcome : LoadChannel) : Ordered log ⟨v.receive k outcome, tasks.set k outcome⟩ := by
  have hlt : k < tasks.length := (List.getElem?_eq_some_iff.mp hk).1
  -- The tasks of the log have ended, so the task that ends now is none of them.
  have hsent : ∀ i ∈ log, (tasks.set k outcome)[i.load]? = some (.sent (.ok i.model)) := by
    intro i hi
    have hne : k ≠ i.load := by
      rintro rfl
      have := hk.symm.trans (h.sent i hi)
      cases this
    rw [List.getElem?_set_ne hne]
    exact h.sent i hi
  by_cases hp : v.pending = some ⟨k, .running⟩
  · have hv : v.receive k outcome = { v with pending := some ⟨k, outcome⟩ } := by
      simp [Viewer.receive, hp]
    rw [hv]
    constructor
    case loads => simpa using h.loads
    case newest =>
      rintro p ⟨⟩
      simpa using h.newest _ hp
    case channel =>
      rintro p ⟨⟩
      simp [hlt]
    case sorted => exact h.sorted
    case older =>
      rintro i hi p ⟨⟩
      exact h.older i hi ⟨k, .running⟩ hp
    case sent => exact hsent
    case shown => exact h.shown
  · have hother : ∀ p ∈ v.pending, k ≠ p.number := by
      rintro p hv rfl
      have := hk.symm.trans (h.channel p hv)
      obtain ⟨n, c⟩ := p
      cases Option.some.inj this
      exact hp hv
    have hv : v.receive k outcome = v := by
      unfold Viewer.receive
      split
      · next n hv => rw [if_neg (hother _ hv).symm]
      · rfl
    rw [hv]
    constructor
    case loads => simpa using h.loads
    case newest =>
      intro p hp
      simpa using h.newest p hp
    case channel =>
      intro p hp
      show (tasks.set k outcome)[p.number]? = _
      rw [List.getElem?_set_ne (hother p hp)]
      exact h.channel p hp
    case sorted => exact h.sorted
    case older => exact h.older
    case sent => exact hsent
    case shown => exact h.shown

/-- To take in a load is to install its model, if it has one. -/
lemma finish (h : Ordered log ⟨v, tasks⟩) {p : PendingLoad} {r : LoadResult}
    (hp : v.pending = some p) (hr : p.channel.result? = some r) :
    Ordered (log ++ (Installation.ofResult? (p.number, r)).toList) ⟨v.poll.2, tasks⟩ := by
  have hpending : v.poll.2.pending = none := by
    rw [poll_of_result hp hr, finishLoad_pending]
  have hloads : v.poll.2.loads = v.loads := by
    rw [poll_of_result hp hr, finishLoad_loads]
  have hshown : v.poll.2.shown = v.shown.after r := by
    rw [poll_of_result hp hr, finishLoad_shown]
    rfl
  have hnone : ∀ q, q ∉ v.poll.2.pending := by
    rw [hpending]
    intro q hq
    cases hq
  cases r with
  | error e =>
    rw [show (Installation.ofResult? (p.number, .error e)).toList = [] from rfl, List.append_nil]
    exact ⟨hloads.trans h.loads, fun q hq => absurd hq (hnone q), fun q hq => absurd hq (hnone q), h.sorted,
      fun _ _ q hq => absurd hq (hnone q), h.sent, hshown.trans h.shown⟩
  | ok m =>
    rw [show (Installation.ofResult? (p.number, .ok m)).toList = [⟨p.number, m⟩] from rfl]
    have hchannel : p.channel = .sent (.ok m) := by
      cases hc : p.channel with
      | running => rw [hc] at hr; cases hr
      | sent result => rw [hc] at hr; cases hr; rfl
      | vanished => rw [hc] at hr; cases hr
    constructor
    case loads => exact hloads.trans h.loads
    case newest => exact fun q hq => absurd hq (hnone q)
    case channel => exact fun q hq => absurd hq (hnone q)
    case sorted =>
      rw [List.pairwise_append]
      refine ⟨h.sorted, List.pairwise_singleton _ _, ?_⟩
      intro i hi j hj
      rw [List.mem_singleton.mp hj]
      exact h.older i hi p hp
    case older => exact fun _ _ q hq => absurd hq (hnone q)
    case sent =>
      intro i hi
      rcases List.mem_append.mp hi with hi | hi
      · exact h.sent i hi
      · rw [List.mem_singleton.mp hi, ← hchannel]
        exact h.channel p hp
    case shown =>
      rw [hshown]
      simp [shownAfter, Shown.after]

/-- A poll keeps the order. -/
lemma poll (h : Ordered log ⟨v, tasks⟩) :
    Ordered (log ++ (Event.poll.installed? v).toList) ⟨v.poll.2, tasks⟩ := by
  cases hfinished : Event.poll.finished? v with
  | none =>
    rw [poll_of_none (finished?_poll_eq_none.mp hfinished), Event.installed?, hfinished]
    simpa using h
  | some finished =>
    obtain ⟨p, hp, r, hr, rfl⟩ := finished?_poll_eq_some.mp hfinished
    rw [Event.installed?, hfinished]
    exact h.finish hp hr

/-- A load on the spot keeps it: it is the newest task, and it has ended. -/
lemma loadNow (h : Ordered log ⟨v, tasks⟩) (bytes : List UInt8) :
    Ordered (log ++ ((Event.loadNow bytes).installed? v).toList) ⟨(v.loadNow bytes).2,
      tasks ++ [.sent (LoadedModel.ofBytes bytes v.settings .never .start).1]⟩ := by
  generalize hr : (LoadedModel.ofBytes bytes v.settings .never .start).1 = r
  have hloads : v.loads = tasks.length := h.loads
  have hsent := h.load.receive (k := v.loads) (by simp [hloads]) (.sent r)
  have hp : (v.load.receive v.loads (.sent r)).pending = some ⟨v.loads, .sent r⟩ := by
    simp [Viewer.load, Viewer.beginLoading, Viewer.receive]
  have hfinish := hsent.finish hp rfl
  rw [← hr, ← loadNow_eq, hr] at hfinish
  simpa [Event.installed?, Event.finished?, hr, hloads] using hfinish

/-- What installs nothing adds nothing to the log. -/
lemma log_unchanged (h : Ordered log s) (he : e.finished? v = none) :
    Ordered (log ++ (e.installed? v).toList) s := by
  simpa [Event.installed?, he] using h

/-- One event of a session keeps its loads in order. -/
lemma step (h : Ordered log s) (hstep : Step b s e s') :
    Ordered (log ++ (e.installed? s.viewer).toList) s' := by
  cases hstep with
  | load => exact h.load.log_unchanged rfl
  | loadNow bytes => exact h.loadNow bytes
  | poll => exact h.poll
  | wait outcome hended =>
    rw [wait_eq_poll outcome hended]
    exact h.poll
  | frame inputs => exact h.poll.sameLoads (frame_sameLoads b _ inputs)
  | adjust a => exact (h.sameLoads (adjust_sameLoads a _)).log_unchanged rfl
  | sends k r hk => exact (h.receive hk (.sent r)).log_unchanged rfl
  | vanishes k hk => exact (h.receive hk .vanished).log_unchanged rfl

end Ordered

/-- All runs are in order. -/
lemma Run.ordered {backend : σ} {settings : ViewSettings}
    (h : Run b (.start backend settings) es log s) : Ordered log s := by
  induction h with
  | start => exact .start backend settings
  | step _ hstep ih => exact ih.step hstep

/-! ## Which loads are taken in -/

/-- How many loads were asked for. -/
def loadCalls (es : List Event) : Nat := es.countP Event.isLoad

/-- There is one more task for each load that is asked for. -/
lemma Step.tasks_length (h : Step b s e s') :
    s'.tasks.length = s.tasks.length + if e.isLoad then 1 else 0 := by
  cases h with
  | load => simp [Event.isLoad]
  | loadNow bytes => simp [Event.isLoad]
  | poll | wait | frame | adjust => rfl
  | sends | vanishes => simp [Event.isLoad]

/-- There are as many tasks as loads that were asked for. -/
lemma Run.tasks_length (h : Run b v es log s) : s.tasks.length = loadCalls es := by
  induction h with
  | start => rfl
  | @step es log s e s' _ hstep ih => simp [loadCalls, List.countP_append, hstep.tasks_length, ih]

/-- Only the newest load is ever taken in. -/
lemma Ordered.finished_newest (h : Ordered log s) (hstep : Step b s e s') {k : Nat} {r : LoadResult}
    (he : e.finished? s.viewer = some (k, r)) : k + 1 = s'.tasks.length := by
  have hpolled : Event.poll.finished? s.viewer = some (k, r) → k + 1 = s.tasks.length := by
    intro hpoll
    obtain ⟨p, hp, _, _, hk⟩ := finished?_poll_eq_some.mp hpoll
    cases hk
    exact h.newest p hp
  cases hstep with
  | loadNow bytes =>
    cases he
    simp [← h.loads]
  | poll | wait | frame => exact hpolled he
  | load | adjust | sends | vanishes => cases he

/-! ## Loads that end with an error -/

/-- Nothing is lost at an event but the camera has moved as it was told to. -/
structure Keeps (e : Event) (v v' : Viewer σ) : Prop where
  shown : v'.shown = v.shown
  selection : v'.selection = v.selection
  filter : v'.filter = v.filter
  measurement : v'.measurement = v.measurement
  measuring : v'.measuring = v.measuring
  camera : v'.camera = e.inputs.foldl Camera.apply v.camera

/-- A poll that takes in an error loses nothing. -/
lemma poll_keeps {k : Nat} {error : ViewError}
    (he : Event.poll.finished? v = some (k, .error error)) : Keeps .poll v v.poll.2 := by
  obtain ⟨p, hp, r, hr, hkr⟩ := finished?_poll_eq_some.mp he
  cases hkr
  obtain ⟨_, _, hv⟩ := finishLoad_error { v with pending := none } error
  rw [poll_of_result hp hr, hv]
  exact ⟨rfl, rfl, rfl, rfl, rfl, rfl⟩

/-- A load on the spot that fails loses nothing. -/
lemma loadNow_keeps {bytes : List UInt8} {k : Nat} {error : ViewError}
    (he : (Event.loadNow bytes).finished? v = some (k, .error error)) :
    Keeps (.loadNow bytes) v (v.loadNow bytes).2 := by
  have hr : (LoadedModel.ofBytes bytes v.settings .never .start).1 = .error error :=
    congrArg Prod.snd (Option.some.inj he)
  obtain ⟨_, _, hv⟩ := finishLoad_error (v.beginLoading none) error
  rw [Viewer.loadNow, hr, hv]
  exact ⟨rfl, rfl, rfl, rfl, rfl, rfl⟩

/-- No event at which a load fails loses anything. -/
lemma Step.keeps (hstep : Step b s e s') {k : Nat} {error : ViewError}
    (he : e.finished? s.viewer = some (k, .error error)) : Keeps e s.viewer s'.viewer := by
  cases hstep with
  | loadNow bytes => exact loadNow_keeps he
  | poll => exact poll_keeps he
  | wait outcome hended =>
    rw [wait_eq_poll outcome hended]
    obtain ⟨hshown, hselection, hfilter, hmeasurement, hmeasuring, hcamera⟩ := poll_keeps he
    exact ⟨hshown, hselection, hfilter, hmeasurement, hmeasuring, hcamera⟩
  | @frame v tasks inputs =>
    -- The frame takes the load in, then moves the camera, and changes nothing else of these.
    obtain ⟨hshown, hselection, hfilter, hmeasurement, hmeasuring, hcamera⟩ := poll_keeps he
    have hmoved : (v.frame b inputs).2.camera = inputs.foldl Camera.apply v.poll.2.camera := rfl
    exact ⟨hshown, hselection, hfilter, hmeasurement, hmeasuring,
      hmoved.trans (congrArg (inputs.foldl Camera.apply) hcamera)⟩
  | load | adjust | sends | vanishes => cases he

/-- What is promised of a session with the events `es` in which `log` was installed. -/
structure Orderly (b : Backend Float32 σ) (es : List Event) (log : List Installation) (s : Session σ) :
    Prop where
  /-- Models are installed in the order of their loads, each at most once. -/
  sorted : log.Pairwise (·.load < ·.load)
  /-- What is installed for a load is what its task has sent. -/
  sent : ∀ i ∈ log, s.tasks[i.load]? = some (.sent (.ok i.model))
  /-- What was installed last is shown. -/
  shown : s.viewer.shown = shownAfter log
  /-- A load whose model comes to be installed is the last that was asked for. -/
  newest : ∀ e s' i, Step b s e s' → e.installed? s.viewer = some i → loadCalls (es ++ [e]) = i.load + 1
  /-- A load that ends with an error changes nothing. -/
  keeps : ∀ e s' k error, Step b s e s' → e.finished? s.viewer = some (k, .error error) →
    Keeps e s.viewer s'.viewer

/-- All runs are orderly. -/
theorem run_orderly {backend : σ} {settings : ViewSettings}
    (h : Run b (.start backend settings) es log s) : Orderly b es log s where
  sorted := h.ordered.sorted
  sent := h.ordered.sent
  shown := h.ordered.shown
  newest := by
    intro e s' i hstep hi
    obtain ⟨⟨k, r⟩, hfinished, hr⟩ := Option.bind_eq_some_iff.mp hi
    have hk : i.load = k := by
      cases r with
      | ok m => cases hr; rfl
      | error _ => cases hr
    rw [hk, h.ordered.finished_newest hstep hfinished]
    exact (h.step hstep).tasks_length.symm
  keeps := by
    intro e s' k error hstep he
    exact hstep.keeps he

/-- A model without objects. -/
def emptyModel (unit : Float) : LoadedModel := .assemble {} ⟨[], ⟨0, 0, 0, 0, 0⟩, .empty 0, unit⟩

/-- The first load ends in time, but nobody looks before there is a second one. -/
theorem superseded_orderly : ∃ s : Session Recorder,
    Run Recorder.backend (.start (.ofCapacity none) .standard)
      [.load, .sends 0 (.ok (emptyModel 1)), .load, .sends 1 (.ok (emptyModel 2)), .poll]
      [⟨1, emptyModel 2⟩] s ∧
    Orderly Recorder.backend
      [.load, .sends 0 (.ok (emptyModel 1)), .load, .sends 1 (.ok (emptyModel 2)), .poll]
      [⟨1, emptyModel 2⟩] s := by
  have run := ((((Run.start (b := Recorder.backend) (v := .start (.ofCapacity none) .standard)).step
    .load).step (.sends 0 (.ok (emptyModel 1)) rfl)).step .load).step
    (.sends 1 (.ok (emptyModel 2)) rfl) |>.step .poll
  exact ⟨_, run, run_orderly run⟩

end Session

end BuildingModel
