import BuildingModel.Proofs.View.Picking
import BuildingModel.Proofs.View.Session

/-!
# The life of a viewer

What holds of a viewer at any time, whatever was called and however its loads have ended: it is loading
exactly if a load is pending, it says that a load has failed exactly if there is an error to show, what it
shows stems from one load, and what is selected is in the scene (`Session.run_coherent`).

A session is made of few changes to its viewer: a load is begun, something comes of it, it is taken in, a
frame is drawn, or something is adjusted. `Session.Stable` names the properties that none of these takes
away; they hold throughout a session (`Stable.run`).
-/

namespace BuildingModel

variable {σ : Type} {v v' : Viewer σ}

/-! ## What a change can do -/

namespace Viewer

/-- A result is shown, or said to be an error of the file, or forgotten. -/
lemma finishLoad_cases (v : Viewer σ) (r : LoadResult) :
    (∃ m, (v.finishLoad r).2 = v.install m) ∨
      (∃ message, (v.finishLoad r).2 = { v with lastError := some message, state := .loadFailed }) ∨
      (v.finishLoad r).2 = { v with state := v.resumeState } := by
  cases r with
  | ok m => exact .inl ⟨m, rfl⟩
  | error e =>
    by_cases he : e.isLoadFailure
    · exact .inr (.inl ⟨e.message, by simp [finishLoad, he]⟩)
    · exact .inr (.inr (by simp [finishLoad, he]))

/-- A poll does nothing, or takes in what the load has sent. -/
lemma poll_cases (v : Viewer σ) :
    v.poll.2 = v ∨ v.pending.isSome = true ∧ ∃ r, v.poll.2 = ({ v with pending := none }.finishLoad r).2 := by
  cases hp : v.pending with
  | none => exact .inl (Session.poll_of_none (by rw [hp, Option.bind_none]))
  | some p =>
    cases hr : p.channel.result? with
    | none => exact .inl (Session.poll_of_none (by rw [hp, Option.bind_some, hr]))
    | some r => exact .inr ⟨rfl, r, Session.poll_of_result hp hr⟩

/-- The end of a task changes nothing, or is noted for the load that the viewer waits for. -/
lemma receive_cases (v : Viewer σ) (k : Nat) (outcome : LoadChannel) :
    v.receive k outcome = v ∨ v.pending.isSome = true ∧
      ∃ p, v.receive k outcome = { v with pending := some p } := by
  unfold receive
  split
  · rename_i n hp
    split
    · exact .inr ⟨by rw [hp]; rfl, ⟨n, outcome⟩, rfl⟩
    · exact .inl rfl
  · exact .inl rfl

/-- Only objects of the scene are picked. -/
lemma pick?_object {pixel : Vec2 Float32} {hit : PickHit Float32} (hhit : v.pick? pixel = some hit) :
    (v.scene.object? hit.object).isSome = true := by
  rw [pick?, Camera.pick?, Look.pickScreen?] at hhit
  obtain ⟨_, -, hhit⟩ := Option.bind_eq_some_iff.mp hhit
  obtain ⟨ray, -, hray⟩ := Option.bind_eq_some_iff.mp hhit
  obtain ⟨_, o, _, _, -, hits⟩ := Look.hits_of_pickRay? hray
  rw [hits.object]
  rfl

end Viewer

/-- What an adjustment makes of a viewer. -/
inductive Adjusts (v : Viewer σ) : Adjustment → Viewer σ → Prop where
  | view {a} (camera : Camera) (filter : VisibilityFilter Float32) :
      Adjusts v a { v with camera := camera, filter := filter }
  | pause {a} : v.state = .rendering → Adjusts v a { v with state := .loaded }
  | select {a} (selection : List ObjectKey) :
      (∀ key ∈ selection, key ∈ v.selection ∨ (v.scene.object? key).isSome = true) →
      Adjusts v a { v with selection := selection }
  | measure {a} (m : Measurement) (on : Bool) :
      (on = false → m.points = [] ∨ v.measuring = false ∧ m = v.measurement) →
      Adjusts v a { v with measurement := m, measuring := on }
  /-- The points are written to directly. -/
  | write (f : Measurement → Measurement) :
      Adjusts v (.changeMeasurement f) { v with measurement := f v.measurement }

namespace Adjusts

lemma nothing (v : Viewer σ) (a : Adjustment) : Adjusts v a v := .view v.camera v.filter

/-- What is selected is an object of the scene, or nothing. -/
lemma of_select (v : Viewer σ) (a : Adjustment) (key : ObjectKey) : Adjusts v a (v.select key) := by
  unfold Viewer.select
  split
  · rename_i hkey
    apply Adjusts.select
    intro other hother
    rcases List.mem_insert_iff.mp hother with rfl | hother
    · exact .inr hkey
    · exact .inl hother
  · exact .nothing v a

/-- Toggling selects an object of the scene or takes it out. -/
lemma of_toggle (v : Viewer σ) (a : Adjustment) (key : ObjectKey) : Adjusts v a (v.toggle key) := by
  unfold Viewer.toggle
  split
  · exact .select _ fun other hother => .inl (List.mem_filter.mp hother).1
  · exact of_select v a key

/-- Selecting at a pixel selects what is picked there. -/
lemma of_selectAt (v : Viewer σ) (a : Adjustment) (pixel : Vec2 Float32) :
    Adjusts v a (v.selectAt pixel).2 := by
  apply Adjusts.select
  intro key hkey
  rw [Option.mem_toList] at hkey
  obtain ⟨hit, hhit, rfl⟩ := Option.map_eq_some_iff.mp hkey
  exact .inr (Viewer.pick?_object hhit)

/-- Switching to another way of measuring drops the points. -/
lemma of_setMeasuring (v : Viewer σ) (a : Adjustment) (enabled : Bool) :
    Adjusts v a (v.setMeasuring enabled) := by
  apply Adjusts.measure
  intro hoff
  split
  · rename_i hsame
    exact .inr ⟨hsame.symm.trans hoff, rfl⟩
  · exact .inl rfl

/-- Measuring at a pixel adds a point only while something is measured. -/
lemma of_measureAt (v : Viewer σ) (a : Adjustment) (pixel : Vec2 Float32) :
    Adjusts v a (v.measureAt pixel).2 := by
  unfold Viewer.measureAt
  cases v.pick? pixel with
  | none => exact .nothing v a
  | some hit =>
    dsimp only
    split
    · rename_i hon
      apply Adjusts.measure _ v.measuring
      intro hoff
      exact absurd (hon.symm.trans hoff) (by decide)
    · exact .nothing v a

end Adjusts

/-- Every adjustment does one of these things. -/
lemma Adjustment.adjusts (a : Adjustment) (v : Viewer σ) : Adjusts v a (a.apply v) := by
  cases a with
  | pause =>
    show Adjusts v _ v.pause
    unfold Viewer.pause
    split
    · rename_i hdrawn
      exact .pause hdrawn
    · exact .nothing v _
  | select key => exact .of_select v _ key
  | toggle key => exact .of_toggle v _ key
  | clearSelection => exact .select [] (by simp)
  | selectAt pixel => exact .of_selectAt v _ pixel
  | setMeasuring enabled => exact .of_setMeasuring v _ enabled
  | measureAt pixel => exact .of_measureAt v _ pixel
  | resetMeasurement => exact .measure .empty v.measuring fun _ => .inl rfl
  | changeMeasurement f => exact .write f
  | fitCamera | moveCamera | changeFilter | hideSubtree => exact .view _ _

/-! ## Properties that last -/

namespace Session

variable {b : Backend Float32 σ} {s s' : Session σ} {es : List Event} {log : List Installation} {e : Event}
  {P : Viewer σ → Prop} {allowed : Adjustment → Prop}

/-- No change to a viewer takes the property away, as long as only some adjustments are made. -/
structure Stable (b : Backend Float32 σ) (allowed : Adjustment → Prop) (P : Viewer σ → Prop) : Prop where
  load : ∀ v, P v → P v.load
  receive : ∀ v k outcome, P v → P (v.receive k outcome)
  poll : ∀ v, P v → P v.poll.2
  frame : ∀ (v : Viewer σ) inputs, P v.poll.2 → P (v.frame b inputs).2
  adjust : ∀ v v' a, allowed a → Adjusts v a v' → P v → P v'

namespace Stable

/-- No event takes a stable property away. -/
lemma step (hP : Stable b allowed P) (hstep : Step b s e s') (he : ∀ a, e = .adjust a → allowed a)
    (h : P s.viewer) : P s'.viewer := by
  cases hstep with
  | load => exact hP.load _ h
  | loadNow bytes =>
    rw [loadNow_eq]
    exact hP.poll _ (hP.receive _ _ _ (hP.load _ h))
  | poll => exact hP.poll _ h
  | wait outcome hended =>
    rw [wait_eq_poll outcome hended]
    exact hP.poll _ h
  | frame inputs => exact hP.frame _ inputs (hP.poll _ h)
  | adjust a => exact hP.adjust _ _ a (he a rfl) (a.adjusts _) h
  | sends k r => exact hP.receive _ k (.sent r) h
  | vanishes k => exact hP.receive _ k .vanished h

/-- So no run does. -/
lemma run (hP : Stable b allowed P) (hrun : Run b v es log s) (hes : ∀ a, .adjust a ∈ es → allowed a)
    (h : P v) : P s.viewer := by
  induction hrun with
  | start => exact h
  | step hrun hstep ih =>
    have hbefore := ih fun a ha => hes a (List.mem_append_left _ ha)
    apply hP.step hstep _ hbefore
    rintro a rfl
    exact hes a (List.mem_append_right _ (List.mem_singleton_self _))

/-- A property that has nothing to do with loads, and outlasts the installation of a model, lasts. -/
lemma of_install
    (hloads : ∀ (v : Viewer σ) pending loads resumeState state lastError, P v →
      P { v with pending := pending, loads := loads, resumeState := resumeState, state := state,
                 lastError := lastError })
    (hinstall : ∀ v m, P v → P (v.install m))
    (hframe : ∀ (v : Viewer σ) inputs, P v.poll.2 → P (v.frame b inputs).2)
    (hadjust : ∀ v v' a, allowed a → Adjusts v a v' → P v → P v') : Stable b allowed P where
  load v h := hloads v _ _ _ _ v.lastError h
  receive v k outcome h := by
    rcases v.receive_cases k outcome with hv | ⟨-, p, hv⟩
    · rw [hv]
      exact h
    · rw [hv]
      exact hloads v _ v.loads v.resumeState v.state v.lastError h
  poll v h := by
    rcases v.poll_cases with hv | ⟨-, r, hv⟩
    · rw [hv]
      exact h
    · rw [hv]
      have hended : P { v with pending := none } := hloads v none v.loads v.resumeState v.state v.lastError h
      rcases Viewer.finishLoad_cases { v with pending := none } r with ⟨m, hr⟩ | ⟨message, hr⟩ | hr
      · rw [hr]
        exact hinstall _ m hended
      · rw [hr]
        exact hloads _ none v.loads v.resumeState .loadFailed (some message) hended
      · rw [hr]
        exact hloads _ none v.loads v.resumeState v.resumeState v.lastError hended
  frame := hframe
  adjust := hadjust

end Stable

end Session

namespace Viewer

variable {a : Adjustment}

/-! ## The state and the last error -/

/-- What the viewer is doing, or will do again when its load ends without saying anything. -/
def resting (v : Viewer σ) : ViewerState := if v.state = .loading then v.resumeState else v.state

/-- While a load is pending, the viewer rests in the state that it will come back to. -/
lemma resting_of_loading (h : v.state = .loading) : v.resting = v.resumeState := if_pos h

/-- Otherwise it rests in the state that it is in. -/
lemma resting_of_not_loading (h : v.state ≠ .loading) : v.resting = v.state := if_neg h

/-- The state of the viewer agrees with its loads. What it says of the model and of the last error has to
be true of the resting state, since the viewer may come back to it. -/
structure Staged (v : Viewer σ) : Prop where
  loading_iff : v.state = .loading ↔ v.pending.isSome = true
  resume_ne : v.resumeState ≠ .loading
  ready : v.resting = .loaded ∨ v.resting = .rendering → v.report.isSome = true ∧ v.lastError = none
  failed_iff : v.lastError.isSome = true ↔ v.resting = .loadFailed

namespace Staged

/-- A viewer starts in agreement. -/
lemma start (backend : σ) (settings : ViewSettings) : (Viewer.start backend settings).Staged where
  loading_iff := by simp [Viewer.start]
  resume_ne := by simp [Viewer.start]
  ready := by simp [Viewer.start, resting]
  failed_iff := by simp [Viewer.start, resting]

/-- Loading is no state to rest in. -/
lemma resting_ne (h : v.Staged) : v.resting ≠ .loading := by
  by_cases hloading : v.state = .loading
  · rw [resting_of_loading hloading]
    exact h.resume_ne
  · rw [resting_of_not_loading hloading]
    exact hloading

/-- A viewer that is not loading, in a state that agrees with its model and its last error. -/
lemma at_rest (hpending : v.pending = none) (hresume : v.resumeState ≠ .loading) (hstate : v.state ≠ .loading)
    (hready : v.state = .loaded ∨ v.state = .rendering → v.report.isSome = true ∧ v.lastError = none)
    (hfailed : v.lastError.isSome = true ↔ v.state = .loadFailed) : v.Staged := by
  refine ⟨?_, hresume, ?_, ?_⟩
  · simp [hpending, hstate]
  · rw [resting_of_not_loading hstate]
    exact hready
  · rw [resting_of_not_loading hstate]
    exact hfailed

/-- Asking for a load remembers the resting state. -/
lemma load (h : v.Staged) : v.load.Staged := by
  have hresting : v.load.resting = v.resting := rfl
  refine ⟨⟨fun _ => rfl, fun _ => rfl⟩, h.resting_ne, ?_, ?_⟩
  · rw [hresting]
    exact h.ready
  · rw [hresting]
    exact h.failed_iff

/-- The end of a task changes no state. -/
lemma receive (h : v.Staged) (k : Nat) (outcome : LoadChannel) : (v.receive k outcome).Staged := by
  rcases v.receive_cases k outcome with hv | ⟨hpending, p, hv⟩
  · rw [hv]
    exact h
  · rw [hv]
    exact ⟨⟨fun _ => rfl, fun _ => h.loading_iff.mpr hpending⟩, h.resume_ne, h.ready, h.failed_iff⟩

/-- Taking in a load that has ended keeps the agreement. -/
lemma poll (h : v.Staged) : v.poll.2.Staged := by
  rcases v.poll_cases with hv | ⟨hpending, r, hv⟩
  · rw [hv]
    exact h
  · have hresting : v.resting = v.resumeState := resting_of_loading (h.loading_iff.mpr hpending)
    rw [hv]
    rcases finishLoad_cases { v with pending := none } r with ⟨m, hr⟩ | ⟨message, hr⟩ | hr
    · rw [hr]
      exact at_rest rfl h.resume_ne (by simp [install]) (fun _ => ⟨rfl, rfl⟩) (by simp [install])
    · rw [hr]
      exact at_rest rfl h.resume_ne (by simp) (by simp) (by simp)
    · -- What was true before the load was begun is still true.
      rw [hr]
      refine at_rest rfl h.resume_ne h.resume_ne ?_ ?_
      · exact fun hready => h.ready (hresting ▸ hready)
      · exact hresting ▸ h.failed_iff

/-- A model that is loaded may be drawn or not. -/
lemma of_shown (h : v.Staged) (hold : v.state = .loaded ∨ v.state = .rendering)
    (hnew : v'.state = .loaded ∨ v'.state = .rendering) (hresume : v'.resumeState = v.resumeState)
    (hpending : v'.pending = v.pending) (hreport : v'.report = v.report) (herror : v'.lastError = v.lastError) :
    v'.Staged := by
  have hne : v.state ≠ .loading := by
    rcases hold with hold | hold <;> simp [hold]
  have hnone : v.pending = none := by
    rw [ne_eq, h.loading_iff, Option.not_isSome_iff_eq_none] at hne
    exact hne
  have hready := h.ready (resting_of_not_loading hne ▸ hold)
  apply at_rest
  · rw [hpending, hnone]
  · rw [hresume]
    exact h.resume_ne
  · rcases hnew with hnew | hnew <;> simp [hnew]
  · intro _
    rw [hreport, herror]
    exact hready
  · rw [herror, hready.2]
    rcases hnew with hnew | hnew <;> simp [hnew]

/-- Drawing a frame keeps the agreement after the poll before it. -/
lemma frame {b : Backend Float32 σ} {inputs : List CameraInput} (h : v.poll.2.Staged) :
    (v.frame b inputs).2.Staged := by
  by_cases hloaded : v.poll.2.state = .loaded
  · have hdrawn : (v.frame b inputs).2.state = .rendering := if_pos hloaded
    exact h.of_shown (.inl hloaded) (.inr hdrawn) rfl rfl rfl rfl
  · have hsame : (v.frame b inputs).2.state = v.poll.2.state := if_neg hloaded
    have hresting : (v.frame b inputs).2.resting = v.poll.2.resting := by
      rw [resting, hsame]
      rfl
    refine ⟨?_, h.resume_ne, ?_, ?_⟩
    · rw [hsame]
      exact h.loading_iff
    · rw [hresting]
      exact h.ready
    · rw [hresting]
      exact h.failed_iff

/-- Adjustments keep the agreement. -/
lemma adjust (h : v.Staged) (ha : Adjusts v a v') : v'.Staged := by
  cases ha with
  | pause hdrawn => exact h.of_shown (.inr hdrawn) (.inl rfl) rfl rfl rfl rfl
  | view | select | measure | write => exact ⟨h.loading_iff, h.resume_ne, h.ready, h.failed_iff⟩

/-- So all events do. -/
lemma stable (b : Backend Float32 σ) : Session.Stable b (fun _ => True) Staged where
  load _ h := h.load
  receive _ k outcome h := h.receive k outcome
  poll _ h := h.poll
  frame _ _ h := h.frame
  adjust _ _ _ _ ha h := h.adjust ha

end Staged

/-! ## The selection -/

/-- Everything that is selected is in the scene. -/
def SelectsShown (v : Viewer σ) : Prop := ∀ key ∈ v.selection, (v.scene.object? key).isSome = true

namespace SelectsShown

/-- Nothing is selected in a new scene. -/
lemma install (v : Viewer σ) (m : LoadedModel) : (v.install m).SelectsShown := by
  intro key hkey
  cases hkey

/-- Adjustments select what is in the scene. -/
lemma adjust (h : v.SelectsShown) (ha : Adjusts v a v') : v'.SelectsShown := by
  cases ha with
  | select selection hselection =>
    intro key hkey
    rcases hselection key hkey with hold | hshown
    · exact h key hold
    · exact hshown
  | view | pause | measure | write => exact h

/-- So all events do, since the selection is dropped with its scene. -/
lemma stable (b : Backend Float32 σ) : Session.Stable b (fun _ => True) SelectsShown :=
  .of_install (fun _ _ _ _ _ _ h => h) (fun v m _ => install v m) (fun _ _ h => h)
    (fun _ _ _ _ ha h => h.adjust ha)

end SelectsShown

/-! ## The measurement -/

/-- There are points only while something is measured. -/
def MeasuresOnDemand (v : Viewer σ) : Prop := v.measuring = false → v.measurement.points = []

namespace MeasuresOnDemand

/-- Adjustments other than a change of the points themselves keep to this. -/
lemma adjust (h : v.MeasuresOnDemand) (hwritten : ∀ f, a ≠ .changeMeasurement f) (ha : Adjusts v a v') :
    v'.MeasuresOnDemand := by
  cases ha with
  | measure m on hm =>
    intro hoff
    rcases hm hoff with hpoints | ⟨hwas, rfl⟩
    · exact hpoints
    · exact h hwas
  | write f => exact absurd rfl (hwritten f)
  | view | pause | select => exact h

/-- So all events do, without such a change. -/
lemma stable (b : Backend Float32 σ) :
    Session.Stable b (fun a => ∀ f, a ≠ .changeMeasurement f) MeasuresOnDemand :=
  .of_install (fun _ _ _ _ _ _ h => h) (fun _ _ h => h) (fun _ _ h => h)
    (fun _ _ _ hwritten ha h => h.adjust hwritten ha)

end MeasuresOnDemand

end Viewer

/-! ## Sessions -/

namespace Session

variable {b : Backend Float32 σ} {s : Session σ} {es : List Event} {log : List Installation}

/-- What holds of a viewer after the events `es`. -/
structure Coherent (es : List Event) (s : Session σ) : Prop where
  loading_iff : s.viewer.state = .loading ↔ s.viewer.pending.isSome = true
  resume_ne : s.viewer.resumeState ≠ .loading
  ready : s.viewer.state = .loaded ∨ s.viewer.state = .rendering →
    s.viewer.report.isSome = true ∧ s.viewer.lastError = none
  failed_iff : s.viewer.lastError.isSome = true ↔
    s.viewer.state = .loadFailed ∨ s.viewer.state = .loading ∧ s.viewer.resumeState = .loadFailed
  /-- All that is shown stems from one load, or there was none. -/
  sameLoad : s.viewer.shown = .nothing ∨
    ∃ (k : Nat) (m : LoadedModel), s.tasks[k]? = some (.sent (.ok m)) ∧ s.viewer.shown = .ofLoaded m
  selected : ∀ key ∈ s.viewer.selection, (s.viewer.scene.object? key).isSome = true
  /-- Unless the points were written to directly, there are some only while something is measured. -/
  measured : (∀ f, .adjust (.changeMeasurement f) ∉ es) →
    s.viewer.measuring = false → s.viewer.measurement.points = []

/-- A viewer shows nothing, or a model that a task has sent. -/
lemma Ordered.shown_cases (h : Ordered log s) : s.viewer.shown = .nothing ∨
    ∃ (k : Nat) (m : LoadedModel), s.tasks[k]? = some (.sent (.ok m)) ∧ s.viewer.shown = .ofLoaded m := by
  rw [h.shown, shownAfter]
  cases hlast : log.getLast? with
  | none => exact .inl rfl
  | some i => exact .inr ⟨i.load, i.model, h.sent i (List.mem_of_getLast? hlast), rfl⟩

/-- Whatever is called and however the loads end, the viewer is coherent. -/
theorem run_coherent {backend : σ} {settings : ViewSettings}
    (h : Run b (.start backend settings) es log s) : Coherent es s := by
  have hstaged : s.viewer.Staged :=
    (Viewer.Staged.stable b).run h (fun _ _ => trivial) (.start backend settings)
  have hselected : s.viewer.SelectsShown := by
    apply (Viewer.SelectsShown.stable b).run h fun _ _ => trivial
    intro key hkey
    cases hkey
  refine ⟨hstaged.loading_iff, hstaged.resume_ne, ?_, ?_, h.ordered.shown_cases, hselected, ?_⟩
  · intro hready
    have hne : s.viewer.state ≠ .loading := by
      rcases hready with hready | hready <;> simp [hready]
    exact hstaged.ready (Viewer.resting_of_not_loading hne ▸ hready)
  · rw [hstaged.failed_iff, Viewer.resting]
    split
    · rename_i hloading
      simp [hloading]
    · rename_i hne
      simp [hne]
  · intro hwritten
    apply (Viewer.MeasuresOnDemand.stable b).run h
    · rintro a ha f rfl
      exact hwritten f ha
    · exact fun _ => rfl

/-- A load fails, a second one is lost, and a third is still to come while something is measured. -/
theorem coherent_after_failure : ∃ s : Session Recorder,
    Run Recorder.backend (.start (.ofCapacity none) .standard)
      [.load, .sends 0 (.error (.read .noDataSection)), .frame [], .load, .vanishes 1, .wait, .load,
        .adjust (.setMeasuring true), .adjust (.select 3)] [] s ∧
    s.viewer.state = .loading ∧ s.viewer.resumeState = .loadFailed ∧
    Coherent [.load, .sends 0 (.error (.read .noDataSection)), .frame [], .load, .vanishes 1, .wait, .load,
        .adjust (.setMeasuring true), .adjust (.select 3)] s := by
  have run := ((((Run.start (b := Recorder.backend) (v := .start (.ofCapacity none) .standard)).step
    .load).step (.sends 0 (.error (.read .noDataSection)) rfl)).step (.frame [])).step .load |>.step
    (.vanishes 1 rfl) |>.step (.wait (.error .cancelled) (by rintro p ⟨⟩; rfl)) |>.step .load |>.step
    (.adjust (.setMeasuring true)) |>.step (.adjust (.select 3))
  exact ⟨_, run, rfl, rfl, run_coherent run⟩

end Session

end BuildingModel
