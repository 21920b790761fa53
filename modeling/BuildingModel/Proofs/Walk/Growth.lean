import BuildingModel.Proofs.Walk.Breakage

/-!
# Walks in a larger model

Entities are added to a model at its end, and nothing in the model refers to them. The walk over the larger
model then begins with the steps of the walk over the model alone (`Step.alike`), because a walk has no choice
(`Step.unique`). What comes after finds the old entities done and changes none of them, so all of them keep
their statuses (`runAll_statusAt_of_grows`).
-/

namespace BuildingModel

open Relation

/-- The first `n` entities have the same references in `g'` as in `g`, and only to each other. -/
structure References.Grows (n : Nat) (g g' : References) : Prop where
  out : ∀ i < n, g'.out i = g.out i
  shapeOut : ∀ i < n, g'.shapeOut i = g.shapeOut i
  closed : ∀ i < n, ∀ c ∈ g.out i, c < n
  closedShape : ∀ i < n, ∀ c ∈ g.shapeOut i, c < n

namespace Walk

variable {n : Nat} {g g' : References} {w w' v v' : Walk} {status status' : Array Status}

/-! ## A walk has no choice -/

/-- There is one step at most. -/
theorem Step.unique (g : References) : Relator.RightUnique (Step g) := by
  intro w v v' st st'
  cases st with
  | @root r hp hr hbefore =>
    cases st' with
    | @root r' hp' hr' hbefore' =>
      rcases Nat.lt_trichotomy r r' with hlt | rfl | hlt
      · exact absurd hr (hbefore' r hlt)
      · rfl
      · exact absurd hr' (hbefore r' hlt)
    | enter hp' | back hp' | pass hp' | leave hp' => cases hp.symm.trans hp'
  | enter hp hc =>
    cases st' with
    | root hp' | leave hp' => cases hp.symm.trans hp'
    | enter hp' =>
      cases hp.symm.trans hp'
      rfl
    | back hp' hc' =>
      cases hp.symm.trans hp'
      cases hc.symm.trans hc'
    | pass hp' hc' =>
      cases hp.symm.trans hp'
      exact absurd hc hc'
  | back hp hc =>
    cases st' with
    | root hp' | leave hp' => cases hp.symm.trans hp'
    | enter hp' hc' =>
      cases hp.symm.trans hp'
      cases hc.symm.trans hc'
    | back hp' =>
      cases hp.symm.trans hp'
      rfl
    | pass hp' _ hc' =>
      cases hp.symm.trans hp'
      exact absurd hc hc'
  | pass hp hunseen hopen =>
    cases st' with
    | root hp' | leave hp' => cases hp.symm.trans hp'
    | enter hp' hc' =>
      cases hp.symm.trans hp'
      exact absurd hc' hunseen
    | back hp' hc' =>
      cases hp.symm.trans hp'
      exact absurd hc' hopen
    | pass hp' =>
      cases hp.symm.trans hp'
      rfl
  | leave hp =>
    cases st' with
    | root hp' | enter hp' | back hp' | pass hp' => cases hp.symm.trans hp'
    | leave hp' =>
      cases hp.symm.trans hp'
      rfl

/-- At the end of the walk there is nothing left to do. -/
lemma not_step_runAll (hsize : status.size = g.all.size) : ¬ Step g (runAll g status) v := by
  have hpath := runAll_path g status
  intro st
  cases st with
  | @root r _ hr =>
    have hlt : r < g.all.size := by
      rw [← (runAll_coherent hsize).sized]
      exact (Array.getElem?_eq_some_iff.mp hr).1
    cases hr.symm.trans (runAll_done hsize hlt)
  | enter hp | back hp | pass hp | leave hp => cases hpath.symm.trans hp

/-- The walk comes through every state that can be reached from its start. -/
lemma steps_runAll (hsize : status.size = g.all.size) (hsteps : ReflTransGen (Step g) (start status) w) :
    ReflTransGen (Step g) w (runAll g status) := by
  -- One of the two states comes after the other, and nothing comes after the end.
  rcases ReflTransGen.total_of_right_unique (Step.unique g) hsteps (runAll_steps g status) with h | h
  · exact h
  · rcases h.cases_head with rfl | ⟨v, hstep, -⟩
    · exact .refl
    · exact absurd hstep (not_step_runAll hsize)

/-! ## Walks that begin alike -/

/-- Two walks are alike on the first `n` entities, and the path lies among these. -/
structure Alike (n : Nat) (w w' : Walk) : Prop where
  visits : ∀ i < n, w'.visits[i]? = w.visits[i]?
  statuses : ∀ i < n, w'.statusAt i = w.statusAt i
  path : w'.path = w.path
  inside : ∀ f ∈ w.path, f.node < n ∧ ∀ c ∈ f.todo, c < n
  sized : w.visits.size = n
  status_sized : w.status.size = n
  status_le : n ≤ w'.status.size

/-- What the smaller walk visits is among the first entities. -/
lemma Alike.lt_of_visits (h : Alike n w w') {i : Nat} {u : Visit} (hi : w.visits[i]? = some u) : i < n := by
  rw [← h.sized]
  exact (Array.getElem?_eq_some_iff.mp hi).1

/-- Walks over statuses that agree start alike. -/
lemma Alike.start (hsize : status.size = n) (hle : n ≤ status'.size)
    (hstatus : ∀ i < n, status'.getD i .ok = status.getD i .ok) :
    Alike n (start status) (start status') where
  visits i hi := by
    have hi' : i < status'.size := by omega
    simp [Walk.start, hsize, hi, hi']
  statuses := hstatus
  path := rfl
  inside := fun f hf => by cases hf
  sized := by simp [Walk.start, hsize]
  status_sized := hsize
  status_le := hle

/-- The path may go on in the same way. -/
lemma Alike.withPath (h : Alike n w w') {path : List Frame}
    (hinside : ∀ f ∈ path, f.node < n ∧ ∀ c ∈ f.todo, c < n) :
    Alike n { w with path := path } { w' with path := path } :=
  ⟨h.visits, h.statuses, rfl, hinside, h.sized, h.status_sized, h.status_le⟩

/-- Entering an entity keeps them alike. -/
lemma Alike.enter (h : Alike n w w') (hg : g.Grows n g') {c : Nat} (hc : w.visits[c]? = some .unseen) :
    Alike n (w.enter g c) (w'.enter g' c) := by
  have hlt := h.lt_of_visits hc
  have hc' : w'.visits[c]? = some .unseen := by rw [h.visits c hlt, hc]
  refine ⟨?_, h.statuses, ?_, ?_, ?_, h.status_sized, h.status_le⟩
  · intro i hi
    rw [Walk.enter, Walk.enter, getElem?_setIfInBounds hc, getElem?_setIfInBounds hc', h.visits i hi]
  · rw [Walk.enter, Walk.enter, hg.out c hlt, h.path]
  · intro f hf
    rcases List.mem_cons.mp hf with rfl | hf
    · exact ⟨hlt, hg.closed c hlt⟩
    · exact h.inside f hf
  · rw [Walk.enter, Array.size_setIfInBounds]
    exact h.sized

/-- Closing a cycle keeps them alike. -/
lemma Alike.closeCycle (h : Alike n w w') (entry : Nat) :
    Alike n (w.closeCycle entry) (w'.closeCycle entry) := by
  refine ⟨h.visits, ?_, h.path, h.inside, h.sized, ?_, ?_⟩
  · intro i hi
    have hlt : i < w.status.size := by rwa [h.status_sized]
    have hlt' : i < w'.status.size := Nat.lt_of_lt_of_le hi h.status_le
    have hsegment : w'.segment entry = w.segment entry := by rw [segment, segment, h.path]
    rw [statusAt_closeCycle, statusAt_closeCycle, hsegment, h.statuses i hi]
    simp only [hlt, hlt']
  · rw [size_status_closeCycle]
    exact h.status_sized
  · rw [size_status_closeCycle]
    exact h.status_le

/-- Leaving an entity keeps them alike. -/
lemma Alike.leave (h : Alike n w w') (hg : g.Grows n g') {node : Nat} {path : List Frame}
    (hp : w.path = ⟨node, []⟩ :: path) : Alike n (w.leave g node path) (w'.leave g' node path) := by
  have hnode : node < n := (h.inside ⟨node, []⟩ (by rw [hp]; exact List.mem_cons_self)).1
  have hopen : ∃ u, w.visits[node]? = some u := by
    rw [← h.sized] at hnode
    exact ⟨_, Array.getElem?_eq_getElem hnode⟩
  obtain ⟨u, hu⟩ := hopen
  have hu' : w'.visits[node]? = some u := by rw [h.visits node hnode, hu]
  have hsizes := (Step.leave (g := g) hp).size_eq
  have hsizes' := (Step.leave (g := g') (h.path.trans hp)).size_eq
  refine ⟨?_, ?_, rfl, ?_, ?_, ?_, ?_⟩
  · intro i hi
    rw [Walk.leave, Walk.leave, getElem?_setIfInBounds hu, getElem?_setIfInBounds hu', h.visits i hi]
  · intro i hi
    have hlt : i < w.status.size := by rwa [h.status_sized]
    have hlt' : i < w'.status.size := Nat.lt_of_lt_of_le hi h.status_le
    have hbroken : (∃ b ∈ g.shapeOut node, w'.statusAt b ≠ .ok) ↔
        ∃ b ∈ g.shapeOut node, w.statusAt b ≠ .ok := by
      refine exists_congr fun b => and_congr_right fun hb => ?_
      rw [h.statuses b (hg.closedShape node hnode b hb)]
    rw [statusAt_leave, statusAt_leave, hg.shapeOut node hnode, h.statuses i hi, h.statuses node hnode]
    simp only [hlt, hlt', hbroken]
  · intro f hf
    apply h.inside f
    rw [hp]
    exact List.mem_cons_of_mem _ hf
  · rw [hsizes.1]
    exact h.sized
  · rw [hsizes.2]
    exact h.status_sized
  · rw [hsizes'.2]
    exact h.status_le

/-- Each step of a walk is a step of the walk over the larger model. -/
lemma Step.alike (st : Step g w v) (hg : g.Grows n g') (h : Alike n w w') :
    ∃ v', Step g' w' v' ∧ Alike n v v' := by
  -- What is seen of an entity on the way of `w` is also seen on the way of `w'`.
  have hseen {node child : Nat} {todo : List Nat} {path : List Frame}
      (hp : w.path = ⟨node, child :: todo⟩ :: path) : w'.visits[child]? = w.visits[child]? ∧
        ∀ f ∈ (⟨node, todo⟩ : Frame) :: path, f.node < n ∧ ∀ c ∈ f.todo, c < n := by
    have hinside := h.inside
    rw [hp] at hinside
    obtain ⟨hnode, htodo⟩ := hinside _ List.mem_cons_self
    refine ⟨h.visits child (htodo child List.mem_cons_self), ?_⟩
    intro f hf
    rcases List.mem_cons.mp hf with rfl | hf
    · exact ⟨hnode, fun c hc => htodo c (List.mem_cons_of_mem _ hc)⟩
    · exact hinside f (List.mem_cons_of_mem _ hf)
  cases st with
  | @root r hp hr hbefore =>
    have hlt := h.lt_of_visits hr
    refine ⟨w'.enter g' r, .root (h.path.trans hp) (by rw [h.visits r hlt, hr]) ?_, h.enter hg hr⟩
    intro i hi
    rw [h.visits i (Nat.lt_trans hi hlt)]
    exact hbefore i hi
  | enter hp hc =>
    obtain ⟨hvisit, hinside⟩ := hseen hp
    exact ⟨_, .enter (h.path.trans hp) (hvisit.trans hc), (h.withPath hinside).enter hg hc⟩
  | back hp hc =>
    obtain ⟨hvisit, hinside⟩ := hseen hp
    exact ⟨_, .back (h.path.trans hp) (hvisit.trans hc), (h.withPath hinside).closeCycle _⟩
  | pass hp hunseen hopen =>
    obtain ⟨hvisit, hinside⟩ := hseen hp
    rw [← hvisit] at hunseen hopen
    exact ⟨_, .pass (h.path.trans hp) hunseen hopen, h.withPath hinside⟩
  | leave hp => exact ⟨_, .leave (h.path.trans hp), h.leave hg hp⟩

/-- The larger walk follows all steps of the smaller one. -/
lemma steps_alike (hsteps : ReflTransGen (Step g) w v) (hg : g.Grows n g') (h : Alike n w w') :
    ∃ v', ReflTransGen (Step g') w' v' ∧ Alike n v v' := by
  induction hsteps with
  | refl => exact ⟨w', .refl, h⟩
  | tail _ st ih =>
    obtain ⟨u', hsteps', hu⟩ := ih
    obtain ⟨v', st', hv⟩ := st.alike hg hu
    exact ⟨v', hsteps'.tail st', hv⟩

/-- The status of an entity that has been left is final. -/
lemma statusAt_of_steps (hsteps : ReflTransGen (Step g) w v) (coh : Coherent g w) {i : Nat}
    (hi : w.visits[i]? = some .done) : v.statusAt i = w.statusAt i := by
  have hkept : Coherent g v ∧ v.visits[i]? = some .done ∧ v.statusAt i = w.statusAt i := by
    induction hsteps with
    | refl => exact ⟨coh, hi, rfl⟩
    | tail _ st ih =>
      obtain ⟨coh, hdone, hstatus⟩ := ih
      exact ⟨st.coherent coh, st.done hdone, (st.statusAt_of_done coh hdone).trans hstatus⟩
  exact hkept.2.2

/-- The first entities keep their statuses in a larger model. -/
theorem runAll_statusAt_of_grows (hg : g.Grows n g') (hsize : status.size = n) (hall : g.all.size = n)
    (hsize' : status'.size = g'.all.size) (hle : n ≤ status'.size)
    (hstatus : ∀ i < n, status'.getD i .ok = status.getD i .ok) {i : Nat} (hi : i < n) :
    (runAll g' status').statusAt i = (runAll g status).statusAt i := by
  -- The larger walk first takes the steps of the smaller one; from there on it finds these entities done.
  obtain ⟨w', hsteps, halike⟩ := steps_alike (runAll_steps g status) hg (.start hsize hle hstatus)
  have coh : Coherent g' w' := by
    clear halike
    induction hsteps with
    | refl => exact .start hsize'
    | tail _ st ih => exact st.coherent ih
  have hdone : w'.visits[i]? = some .done := by
    rw [halike.visits i hi]
    exact runAll_done (hsize.trans hall.symm) (hall.symm ▸ hi)
  rw [statusAt_of_steps (steps_runAll hsize' hsteps) coh hdone]
  exact halike.statuses i hi

end Walk

end BuildingModel
