import BuildingModel.Proofs.View.Accounting

/-!
# What a recorder keeps of a film

Frames are drawn one after the other on one recorder, whose room for objects and whose geometry that cannot
be drawn may change from frame to frame. What was taken in for one draw is still there when the draw is
refused, and when the frame ends; `Recorder.drawBatch_cases` says that it never gets into another draw, since
a batch is drawn only if its own objects have just been taken in. So the draws of each frame are those of its
own batches (`Shot.Recorded`), whatever happened before.
-/

namespace BuildingModel

variable {α : Type}

/-- One frame of a film: what is drawn, and how the recorder is set for it. -/
structure Shot (α : Type) where
  /-- The greatest number of objects taken in at once, if there is one. -/
  capacity : Option Nat
  /-- The digest of a geometry that cannot be drawn. -/
  failHash : Option UInt64
  shapes : List (PlacedShape α)
  viewpoint : Viewpoint α
  thresholds : Thresholds α
  filter : VisibilityFilter α
  selection : List ObjectKey
  highlight : Color

variable [Stored α]

namespace Shot

def context (s : Shot α) : FrameContext α :=
  ⟨.build s.shapes, s.viewpoint, s.thresholds, s.filter, s.selection, s.highlight⟩

/-- What is to be drawn, in order. -/
def batches (s : Shot α) : List (Batch α) := (s.context.look.collect s.context.scene).batches

/-- There is room for the objects of a batch, and its geometry can be drawn. -/
def Accepts (s : Shot α) (b : Batch α) : Prop :=
  (∀ room ∈ s.capacity, b.instances.length ≤ room) ∧ s.failHash ≠ some b.hash

instance (s : Shot α) : DecidablePred s.Accepts := fun _ => inferInstanceAs (Decidable (_ ∧ _))

/-- A draw is that of a batch: of its geometry, once for each of its objects, in their own colours but for
the selected ones. -/
structure Shows (s : Shot α) (b : Batch α) (call : DrawCall) : Prop where
  hash : call.hash = b.hash
  instances : call.instances = b.instances.length
  triangles : ∃ g, s.context.geometry? b = some g ∧ g.hash = b.hash ∧
    call.triangles = g.triangleCount * b.instances.length
  colors : call.colors = b.instances.map fun i => if i.object ∈ s.selection then s.highlight else i.color

/-- The draws of a frame are those of its accepted batches, and are counted. -/
structure Recorded (s : Shot α) (f : FrameStats) (calls : List DrawCall) : Prop where
  draws : List.Forall₂ s.Shows (s.batches.filter s.Accepts) calls
  drawCalls : f.drawCalls = calls.length
  triangles : f.triangles = Number.sumOf (·.triangles) calls

/-- The geometry of each batch is there. -/
lemma exists_geometry (s : Shot α) {b : Batch α} (hb : b ∈ s.batches) :
    ∃ g, s.context.geometry? b = some g ∧ g.hash = b.hash :=
  (s.context.look.accounts_build s.shapes).geometry b hb

end Shot

namespace Recorder

/-- The recorder as it is set for a frame. -/
def setFor (r : Recorder) (s : Shot α) : Recorder := { r with capacity := s.capacity, failHash := s.failHash }

/-- Draw one frame. -/
def take (r : Recorder) (s : Shot α) : FrameStats × Recorder := s.context.render backend (r.setFor s)

/-- Draw frames one after the other: the counts of each, and the recorder after it. -/
def film (r : Recorder) : List (Shot α) → List (FrameStats × Recorder)
  | [] => []
  | s :: shots => r.take s :: (r.take s).2.film shots

/-! ## One batch -/

/-- The recorder is in the middle of a frame. -/
structure Ready (r : Recorder) (s : Shot α) : Prop where
  capacity : r.capacity = s.capacity
  failHash : r.failHash = s.failHash
  inFrame : r.inFrame = true

/-- Selected objects are drawn in the colour for them. -/
lemma colors_highlighted (s : Shot α) (b : Batch α) :
    (s.context.highlighted b).map (·.color) =
      b.instances.map fun i => if i.object ∈ s.selection then s.highlight else i.color := by
  rw [FrameContext.highlighted, List.map_map]
  apply List.map_congr_left
  intro i _
  simp only [Function.comp_apply, Shot.context, List.contains_eq_mem, decide_eq_true_eq]
  split
  · rfl
  · rfl

omit [Stored α] in
/-- An upload is kept for the draw if there is room for it. -/
lemma upload_eq {r : Recorder} (hr : r.inFrame = true) (objects : List (Instance α)) :
    r.upload objects =
      if ∀ room ∈ r.capacity, objects.length ≤ room then (.ok (), { r with pending := objects.map (·.color) })
      else (.error (.outOfMemory objects.length), { r with pending := [] }) := by
  cases hcapacity : r.capacity with
  | none => simp [upload, hr, hcapacity]
  | some room => by_cases hfits : objects.length ≤ room <;> simp [upload, hr, hcapacity, hfits]

omit [Stored α] in
/-- A draw takes what has been uploaded, unless it is to fail. -/
lemma draw_eq {r : Recorder} (hr : r.inFrame = true) (g : Geometry α) (count : Nat) :
    r.draw g count =
      if r.failHash = some g.hash then (.error (.draw s!"geometry {hashText g.hash}"), r)
      else (.ok (), { r with
        calls := r.calls ++ [⟨g.hash, count, g.triangleCount * count, r.pending⟩], pending := [] }) := by
  simp [draw, hr]

/-- A batch is drawn in its own colours if it is accepted; otherwise nothing is drawn, though objects may
have been taken in. -/
lemma drawBatch_cases {r : Recorder} {s : Shot α} (hr : r.Ready s) {b : Batch α} (hb : b ∈ s.batches) :
    (s.Accepts b ∧ ∃ call, s.Shows b call ∧
      s.context.drawBatch backend b r =
        (some call.triangles, { r with calls := r.calls ++ [call], pending := [] })) ∨
    (¬ s.Accepts b ∧ ∃ pending, s.context.drawBatch backend b r = (none, { r with pending })) := by
  obtain ⟨g, hg, hhash⟩ := s.exists_geometry hb
  have hlength : (s.context.highlighted b).length = b.instances.length := List.length_map _
  have haccepts : s.Accepts b ↔ (∀ room ∈ r.capacity, b.instances.length ≤ room) ∧ r.failHash ≠ some b.hash := by
    rw [Shot.Accepts, hr.capacity, hr.failHash]
  have hupload := upload_eq hr.inFrame (s.context.highlighted b)
  have hdraw := draw_eq (r := { r with pending := (s.context.highlighted b).map (·.color) }) hr.inFrame g
    b.instances.length
  rw [hlength] at hupload
  rw [hhash] at hdraw
  simp only [FrameContext.drawBatch, hg, hlength, backend, haccepts]
  by_cases hroom : ∀ room ∈ r.capacity, b.instances.length ≤ room
  · rw [if_pos hroom] at hupload
    simp only [hupload]
    by_cases hfail : r.failHash = some b.hash
    · -- the objects of the refused draw stay behind, until those of the next batch replace them
      rw [if_pos hfail] at hdraw
      simp only [hdraw]
      exact .inr ⟨fun h => h.2 hfail, _, rfl⟩
    · rw [if_neg hfail] at hdraw
      simp only [hdraw]
      refine .inl ⟨⟨hroom, hfail⟩, ⟨_, _, _, _⟩, ⟨rfl, rfl, ⟨g, hg, hhash, rfl⟩, ?_⟩, rfl⟩
      exact colors_highlighted s b
  · rw [if_neg hroom] at hupload
    simp only [hupload]
    exact .inr ⟨fun h => hroom h.1, _, rfl⟩

/-! ## One frame -/

/-- The draws of some batches are added to those there are, and are counted. -/
lemma drawBatches_recorded {s : Shot α} {bs : List (Batch α)} (hbs : ∀ b ∈ bs, b ∈ s.batches)
    {r : Recorder} (hr : r.Ready s) :
    ∃ drawn calls pending,
      s.context.drawBatches backend bs r = (drawn, { r with calls := r.calls ++ calls, pending }) ∧
      List.Forall₂ s.Shows (bs.filter s.Accepts) calls ∧
      drawn.countP (·.isSome) = calls.length ∧
      Number.sumOf (·.getD 0) drawn = Number.sumOf (·.triangles) calls := by
  -- what is pending between two batches is left open, since it may come from a draw that was refused
  induction bs generalizing r with
  | nil => exact ⟨[], [], r.pending, by simp [FrameContext.drawBatches], .nil, rfl, rfl⟩
  | cons b bs ih =>
    rw [List.forall_mem_cons] at hbs
    rw [FrameContext.drawBatches]
    obtain ⟨haccepts, call, hshows, hdraw⟩ | ⟨haccepts, pending, hdraw⟩ := drawBatch_cases hr hbs.1
    · obtain ⟨drawn, calls, pending, hrest, hcalls, hcount, htriangles⟩ :=
        ih hbs.2 (r := { r with calls := r.calls ++ [call], pending := [] }) ⟨hr.1, hr.2, hr.3⟩
      refine ⟨some call.triangles :: drawn, call :: calls, pending, ?_, ?_, ?_, ?_⟩
      · simp only [hdraw, hrest, List.append_assoc, List.singleton_append]
      · rw [List.filter_cons_of_pos (by simpa using haccepts)]
        exact .cons hshows hcalls
      · simp [hcount]
      · simp [htriangles]
    · obtain ⟨drawn, calls, pending', hrest, hcalls, hcount, htriangles⟩ :=
        ih hbs.2 (r := { r with pending }) ⟨hr.1, hr.2, hr.3⟩
      refine ⟨none :: drawn, calls, pending', ?_, ?_, ?_, ?_⟩
      · simp only [hdraw, hrest]
      · rw [List.filter_cons_of_neg (by simpa using haccepts)]
        exact hcalls
      · simp [hcount]
      · simp [htriangles]

/-- Whatever the recorder has seen before, it keeps the draws of the frame and nothing else, and counts the
frame. -/
lemma take_recorded (r : Recorder) (s : Shot α) :
    s.Recorded (r.take s).1 (r.take s).2.calls ∧ (r.take s).2.frames = r.frames + 1 := by
  obtain ⟨drawn, calls, pending, hdraw, hcalls, hcount, htriangles⟩ :=
    drawBatches_recorded (s := s) (fun _ hb => hb)
      (r := { r.setFor s with inFrame := true, calls := [] }) ⟨rfl, rfl, rfl⟩
  have htake : r.take s = (FrameContext.stats (s.context.look.collect s.context.scene) drawn,
      { r.setFor s with inFrame := false, calls, pending, frames := r.frames + 1 }) := by
    rw [take, FrameContext.render]
    simp only [backend, Shot.batches] at hdraw ⊢
    simp only [beginFrame, hdraw]
    rfl
  rw [htake]
  exact ⟨⟨hcalls, hcount, htriangles⟩, rfl⟩

end Recorder

/-- However many frames are drawn on one recorder, and whatever batches it refuses in between, after each
frame it holds exactly the draws of the accepted batches of this frame, in order and in their own colours;
they are counted, and so are the frames. -/
theorem Recorder.film_recorded (r : Recorder) (shots : List (Shot α)) :
    List.Forall₂ (fun s taken => s.Recorded taken.1 taken.2.calls) shots (r.film shots) ∧
      (r.film shots).map (·.2.frames) = List.range' (r.frames + 1) shots.length := by
  induction shots generalizing r with
  | nil => exact ⟨.nil, rfl⟩
  | cons s shots ih =>
    obtain ⟨hrecorded, hframes⟩ := r.take_recorded s
    obtain ⟨hdraws, hcounts⟩ := ih (r.take s).2
    refine ⟨.cons hrecorded hdraws, ?_⟩
    rw [film, List.map_cons, hcounts, hframes, List.length_cons, List.range'_succ]

end BuildingModel
