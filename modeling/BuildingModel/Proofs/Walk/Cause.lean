import BuildingModel.Proofs.Walk.Breakage
import BuildingModel.Proofs.Walk.FirstTrail

/-!
# Where breakage comes from

What the walk says of an entity, in terms of what was known before it. A status only ever turns into
`cyclic`, or from `ok` into `brokenDependency` (`Drift`), and from every entity that is broken a path of
needed entities leads to one that misses something or is marked (`Explained`). Together with the closure of
the sound entities this determines each status (`runAll_unresolved_iff`, `runAll_broken_iff`), so that
entities that are not needed have no influence on it (`runAll_statusAt_congr`).
-/

namespace BuildingModel

open Relation

/-- The statuses that break the entities in need of it. -/
def Status.IsCause (s : Status) : Prop := s = .unresolved ∨ s = .cyclic

/-- A cause of breakage is not sound. -/
lemma Status.IsCause.ne_ok {s : Status} (hs : s.IsCause) : s ≠ .ok := by
  obtain rfl | rfl := hs
  · nofun
  · nofun

namespace Walk

variable {g : References} {w w' : Walk}

/-- What can become of the status `s` during the walk. -/
inductive Drift (s : Status) : Status → Prop where
  | same : Drift s s
  | marked : Drift s .cyclic
  | broken : s = .ok → Drift s .brokenDependency

/-- What misses something in the end did so from the start. -/
lemma Drift.of_unresolved {s : Status} (hd : Drift s .unresolved) : s = .unresolved := by
  cases hd with
  | same => rfl

/-- What is broken in the end was sound at the start. -/
lemma Drift.of_broken {s : Status} (hd : Drift s .brokenDependency) (hs : s ≠ .brokenDependency) :
    s = .ok := by
  cases hd with
  | same => exact absurd rfl hs
  | broken hok => exact hok

/-- What misses something does so still, unless it is on a cycle. -/
lemma Drift.eq_of_missing {t : Status} (hd : Drift .unresolved t) (ht : t ≠ .cyclic) : t = .unresolved := by
  cases hd with
  | same => rfl
  | marked => exact absurd rfl ht
  | broken h => cases h

/-- A step lets a status drift. -/
lemma Drift.step {s : Status} {i : Nat} (hd : Drift s (w.statusAt i)) (st : Step g w w') :
    Drift s (w'.statusAt i) := by
  obtain h | h | ⟨hok, h⟩ := st.statusAt i
  · rw [h]
    exact hd
  · rw [h]
    exact .marked
  · rw [h]
    rw [hok] at hd
    cases hd with
    | same => exact .broken rfl

/-- So does the whole walk. -/
theorem runAll_drift (g : References) (status : Array Status) (i : Nat) :
    Drift (status.getD i .ok) ((runAll g status).statusAt i) := by
  apply runAll_induction (P := fun w => Drift (status.getD i .ok) (w.statusAt i))
  · exact .same
  · intro w w' hd st
    exact hd.step st

/-- From every broken entity, a path of needed entities leads to one that has been left and is a cause of
breakage. -/
def Explained (g : References) (w : Walk) : Prop :=
  ∀ a, w.statusAt a = .brokenDependency →
    ∃ b, TransGen g.Needs a b ∧ w.visits[b]? = some .done ∧ (w.statusAt b).IsCause

/-- Only entities have a status other than that of sound ones. -/
lemma Coherent.lt_size (coh : Coherent g w) {i : Nat} (hi : w.statusAt i ≠ .ok) : i < g.all.size := by
  by_contra hge
  apply hi
  rw [statusAt, Array.getD_eq_getD_getElem?, Array.getElem?_eq_none, Option.getD_none]
  rw [coh.status_sized]
  omega

/-- What a sound entity needs and is not sound explains why leaving the entity breaks it. -/
lemma Coherent.explain (coh : Coherent g w) (hsub : ∀ a, g.shapeOut a ⊆ g.out a) (hex : Explained g w)
    {node path b} (hp : w.path = ⟨node, []⟩ :: path) (hok : w.statusAt node = .ok)
    (hb : b ∈ g.shapeOut node) (hbad : w.statusAt b ≠ .ok) :
    ∃ c, TransGen g.Needs node c ∧ w.visits[c]? = some .done ∧ (w.statusAt c).IsCause := by
  have hneeds : g.Needs node b := ⟨hb, coh.lt_size hbad⟩
  have hdone : w.visits[b]? = some .done := coh.done_of_sound hp hok ⟨hsub _ hb, hneeds.2⟩
  cases hs : w.statusAt b with
  | ok => exact absurd hs hbad
  | unresolved => exact ⟨b, .single hneeds, hdone, .inl hs⟩
  | cyclic => exact ⟨b, .single hneeds, hdone, .inr hs⟩
  | brokenDependency =>
    obtain ⟨c, hpath, hc, hcause⟩ := hex b hs
    exact ⟨c, .head hneeds hpath, hc, hcause⟩

/-- A step keeps breakage explained. The case that breaks an entity is leaving it. -/
lemma Step.explained (st : Step g w w') (coh : Coherent g w) (hsub : ∀ a, g.shapeOut a ⊆ g.out a)
    (hex : Explained g w) : Explained g w' := by
  intro a ha
  -- the status of the cause is final, because the walk has left it
  have keep : (∃ b, TransGen g.Needs a b ∧ w.visits[b]? = some .done ∧ (w.statusAt b).IsCause) →
      ∃ b, TransGen g.Needs a b ∧ w'.visits[b]? = some .done ∧ (w'.statusAt b).IsCause := by
    rintro ⟨b, hpath, hb, hcause⟩
    refine ⟨b, hpath, st.done hb, ?_⟩
    rw [st.statusAt_of_done coh hb]
    exact hcause
  apply keep
  cases st with
  | root | enter | pass => exact hex a ha
  | back =>
    rw [statusAt_closeCycle] at ha
    split at ha
    · cases ha
    · exact hex a ha
  | leave hp =>
    rw [statusAt_leave] at ha
    split at ha
    · rename_i h
      obtain ⟨rfl, -, hok, b, hb, hbad⟩ := h
      exact coh.explain hsub hex hp hok hb hbad
    · exact hex a ha

variable {status : Array Status}

/-- So breakage is explained at the end. -/
theorem runAll_explained (hsize : status.size = g.all.size) (hsub : ∀ a, g.shapeOut a ⊆ g.out a)
    (hown : ∀ i, status.getD i .ok ≠ .brokenDependency) : Explained g (runAll g status) := by
  have h : Coherent g (runAll g status) ∧ Explained g (runAll g status) := by
    apply runAll_induction (P := fun w => Coherent g w ∧ Explained g w)
    · exact ⟨.start hsize, fun a ha => absurd ha (hown a)⟩
    · rintro w w' ⟨coh, hex⟩ st
      exact ⟨st.coherent coh, st.explained coh hsub hex⟩
  exact h.2

/-- What is sound at the end needs only what is sound at the end. -/
lemma runAll_ok_of_needs (hsize : status.size = g.all.size) (hsub : ∀ a, g.shapeOut a ⊆ g.out a)
    {a b : Nat} (hab : TransGen g.Needs a b) (hok : (runAll g status).statusAt a = .ok) :
    (runAll g status).statusAt b = .ok := by
  have hclosed := runAll_soundClosed hsize hsub
  have hlt : ∀ {x y}, g.Needs x y → x < g.all.size := by
    intro x y hxy
    by_contra hge
    have hmem := hsub x hxy.1
    rw [References.out, Array.getD_eq_getD_getElem?, Array.getElem?_eq_none (by omega)] at hmem
    cases hmem
  have next : ∀ {x y}, g.Needs x y → (runAll g status).statusAt x = .ok →
      (runAll g status).statusAt y = .ok := by
    intro x y hxy hx
    exact ((hclosed x ⟨runAll_done hsize (hlt hxy), hx⟩).1 y hxy).ok
  induction hab with
  | single h => exact next h hok
  | tail _ h ih => exact next h ih

/-- Before the walk an entity is sound or misses something. -/
def OwnStatuses (status : Array Status) : Prop :=
  ∀ i, status.getD i .ok = .ok ∨ status.getD i .ok = .unresolved

/-- No entity is cyclic by itself. -/
lemma OwnStatuses.ne_cyclic (hown : OwnStatuses status) (i : Nat) : status.getD i .ok ≠ .cyclic := by
  obtain h | h := hown i
  · rw [h]
    nofun
  · rw [h]
    nofun

/-- No entity is broken by itself. -/
lemma OwnStatuses.ne_broken (hown : OwnStatuses status) (i : Nat) :
    status.getD i .ok ≠ .brokenDependency := by
  obtain h | h := hown i
  · rw [h]
    nofun
  · rw [h]
    nofun

/-- An entity ends unresolved exactly if it misses something and is not marked. -/
theorem runAll_unresolved_iff (g : References) (status : Array Status) (a : Nat) :
    (runAll g status).statusAt a = .unresolved ↔
      (runAll g status).statusAt a ≠ .cyclic ∧ status.getD a .ok = .unresolved := by
  have hdrift := runAll_drift g status a
  constructor
  · intro h
    rw [h] at hdrift ⊢
    exact ⟨by decide, hdrift.of_unresolved⟩
  · rintro ⟨hne, hs⟩
    rw [hs] at hdrift
    exact hdrift.eq_of_missing hne

/-- An entity ends broken exactly if it is not marked and misses nothing itself, but needs an entity that
is a cause of breakage. -/
theorem runAll_broken_iff (hsize : status.size = g.all.size) (hsub : ∀ a, g.shapeOut a ⊆ g.out a)
    (hown : OwnStatuses status) (a : Nat) :
    (runAll g status).statusAt a = .brokenDependency ↔
      (runAll g status).statusAt a ≠ .cyclic ∧ status.getD a .ok = .ok ∧
        ∃ b, TransGen g.Needs a b ∧ ((runAll g status).statusAt b).IsCause := by
  have hdrift := runAll_drift g status a
  constructor
  · intro h
    obtain ⟨b, hpath, -, hcause⟩ := runAll_explained hsize hsub hown.ne_broken a h
    rw [h] at hdrift ⊢
    exact ⟨by decide, hdrift.of_broken (hown.ne_broken a), b, hpath, hcause⟩
  · rintro ⟨hne, hs, b, hpath, hcause⟩
    rw [hs] at hdrift
    cases hd : (runAll g status).statusAt a with
    | ok => exact absurd (runAll_ok_of_needs hsize hsub hpath hd) hcause.ne_ok
    | brokenDependency => rfl
    | cyclic => exact absurd hd hne
    | unresolved =>
      rw [hd] at hdrift
      cases hdrift

/-- The status of an entity depends only on what is known before the walk of the entities that it needs,
and of itself. -/
theorem runAll_statusAt_congr {status' : Array Status} (hsize : status.size = g.all.size)
    (hsize' : status'.size = g.all.size) (hsub : ∀ a, g.shapeOut a ⊆ g.out a)
    (hown : OwnStatuses status) (hown' : OwnStatuses status') {a : Nat}
    (hsame : ∀ b, ReflTransGen g.Needs a b → status.getD b .ok = status'.getD b .ok) :
    (runAll g status).statusAt a = (runAll g status').statusAt a := by
  have hcyclic : ∀ i, (runAll g status).statusAt i = .cyclic ↔
      (runAll g status').statusAt i = .cyclic := by
    intro i
    rw [runAll_cyclic_iff hsize hown.ne_cyclic, runAll_cyclic_iff hsize' hown'.ne_cyclic]
  have hunresolved : ∀ b, ReflTransGen g.Needs a b → ((runAll g status).statusAt b = .unresolved ↔
      (runAll g status').statusAt b = .unresolved) := by
    intro b hb
    rw [runAll_unresolved_iff, runAll_unresolved_iff, Ne, Ne, hcyclic, hsame b hb]
  have hbroken : (runAll g status).statusAt a = .brokenDependency ↔
      (runAll g status').statusAt a = .brokenDependency := by
    rw [runAll_broken_iff hsize hsub hown, runAll_broken_iff hsize' hsub hown', Ne, Ne, hcyclic,
      hsame a .refl]
    have hcause : ∀ b, TransGen g.Needs a b → (((runAll g status).statusAt b).IsCause ↔
        ((runAll g status').statusAt b).IsCause) := by
      intro b hb
      rw [Status.IsCause, Status.IsCause, hcyclic, hunresolved b hb.to_reflTransGen]
    simp only [and_congr_right_iff]
    intro _ _
    exact exists_congr fun b => and_congr_right fun hb => hcause b hb
  have hunresolved := hunresolved a .refl
  have hcyclic := hcyclic a
  cases h : (runAll g status).statusAt a with
  | unresolved => exact (hunresolved.mp h).symm
  | cyclic => exact (hcyclic.mp h).symm
  | brokenDependency => exact (hbroken.mp h).symm
  | ok =>
    cases h' : (runAll g status').statusAt a with
    | ok => rfl
    | unresolved => rw [hunresolved.mpr h'] at h; cases h
    | cyclic => rw [hcyclic.mpr h'] at h; cases h
    | brokenDependency => rw [hbroken.mpr h'] at h; cases h

end Walk

end BuildingModel
