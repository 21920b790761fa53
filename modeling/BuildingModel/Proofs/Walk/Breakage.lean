import BuildingModel.Proofs.Walk.Coherent

/-!
# Breakage along shape references

What the walk leaves sound needs only sound entities. An entity is left sound only when none of its
references leads back to the path, so everything that it refers to has been left before it
(`Coherent.done_of_sound`), and the status of an entity that has been left is final. Hence what a sound
entity needs is sound as well, and chains of needed entities end (`SoundClosed`).
-/

namespace BuildingModel

open Relation

/-- The shape of `a` needs the entity at `b`. -/
def References.Needs (g : References) (a b : Nat) : Prop := b ∈ g.shapeOut a ∧ b < g.all.size

namespace Walk

variable {g : References} {w w' : Walk}

/-- An entity that has been left and is sound. -/
structure Sound (w : Walk) (a : Nat) : Prop where
  done : w.visits[a]? = some .done
  ok : w.statusAt a = .ok

/-- What a sound entity needs is sound, and chains of needed entities end. -/
def SoundClosed (g : References) (w : Walk) : Prop :=
  ∀ a, w.Sound a → (∀ b, g.Needs a b → w.Sound b) ∧ Acc (fun b a => g.Needs a b) a

/-- A step changes no status of an entity that has been left. -/
lemma Step.statusAt_of_done (st : Step g w w') (coh : Coherent g w) {i : Nat}
    (hi : w.visits[i]? = some .done) : w'.statusAt i = w.statusAt i := by
  have hnot : i ∉ w.nodes := by
    rw [← coh.open_iff, hi]
    nofun
  cases st with
  | root | enter | pass => rfl
  | @back node child todo path hp hc =>
    rw [statusAt_closeCycle, segment_eq_loop hp, if_neg]
    · rfl
    · rintro ⟨h, -⟩
      exact hnot (mem_of_mem_loop ((coh.open_iff child).mp hc) h)
  | leave hp =>
    rw [statusAt_leave, if_neg]
    rintro ⟨rfl, -⟩
    exact hnot (by simp [nodes, hp])

/-- What is sound stays sound. -/
lemma Sound.step {a} (hs : w.Sound a) (st : Step g w w') (coh : Coherent g w) : w'.Sound a :=
  ⟨st.done hs.done, (st.statusAt_of_done coh hs.done).trans hs.ok⟩

/-- When a sound entity is left, all that it refers to has been left before. -/
lemma Coherent.done_of_sound (coh : Coherent g w) {node path} (hp : w.path = ⟨node, []⟩ :: path)
    (hok : w.statusAt node = .ok) {c : Nat} (hc : g.Refers node c) : w.visits[c]? = some .done := by
  cases coh.followed_of_leave hp c hc.1 with
  | outside h =>
    rw [Array.getElem?_eq_none_iff, coh.sized] at h
    exact absurd hc.2 (by omega)
  | back _ hloop =>
    -- a reference back to the path would have marked the entity itself
    have hcyc := hloop node (head_mem_loop node c _)
    rw [hok] at hcyc
    cases hcyc
  | settled hs => exact hs c .refl

/-- A step makes an entity sound only by leaving it, when all that it needs is sound. -/
lemma Step.sound_inv (st : Step g w w') (coh : Coherent g w) (hsub : ∀ a, g.shapeOut a ⊆ g.out a)
    {a} (hs : w'.Sound a) : w.Sound a ∨ ∀ b, g.Needs a b → w.Sound b := by
  have old (hv : w.visits[a]? = some .done) : w.Sound a :=
    ⟨hv, (st.statusAt_of_done coh hv).symm.trans hs.ok⟩
  obtain hdone | ⟨path, hp, rfl⟩ := st.done_inv hs.done
  · exact .inl (old hdone)
  · have hopen : w.visits[a]? = some .open := (coh.open_iff a).mpr (by simp [nodes, hp])
    have hlt : a < w.status.size := by
      rw [coh.status_sized, ← coh.sized]
      exact (Array.getElem?_eq_some_iff.mp hopen).1
    have hok := hs.ok
    rw [statusAt_leave] at hok
    split at hok
    · cases hok
    · rename_i hnot
      refine .inr fun b hb => ⟨coh.done_of_sound hp hok ⟨hsub _ hb.1, hb.2⟩, ?_⟩
      -- had the entity needed something broken, leaving it would have broken it
      by_contra hbad
      exact hnot ⟨rfl, hlt, hok, b, hb.1, hbad⟩

/-- A step keeps the needs of sound entities sound. The case that makes an entity sound is leaving it. -/
theorem Step.soundClosed (st : Step g w w') (coh : Coherent g w) (hsub : ∀ a, g.shapeOut a ⊆ g.out a)
    (hcl : SoundClosed g w) : SoundClosed g w' := by
  intro a ha
  obtain h | h := st.sound_inv coh hsub ha
  · obtain ⟨hneeds, hacc⟩ := hcl a h
    exact ⟨fun b hb => (hneeds b hb).step st coh, hacc⟩
  · exact ⟨fun b hb => (h b hb).step st coh, .intro a fun b hb => (hcl b (h b hb)).2⟩

/-- A status that is sound at the end was sound at the start. -/
lemma runAll_statusAt_ok {status : Array Status} {i : Nat} (hok : (runAll g status).statusAt i = .ok) :
    status.getD i .ok = .ok := by
  by_contra hbad
  have hkeep : (runAll g status).statusAt i ≠ .ok := by
    apply runAll_induction (P := fun w => w.statusAt i ≠ .ok) hbad
    intro w w' hw st
    obtain h | h | ⟨h, -⟩ := st.statusAt i
    · exact h ▸ hw
    · rw [h]
      nofun
    · exact absurd h hw
  exact hkeep hok

/-- At the end of the walk, what a sound entity needs is sound, and chains of needed entities end. -/
theorem runAll_soundClosed {status : Array Status} (hsize : status.size = g.all.size)
    (hsub : ∀ a, g.shapeOut a ⊆ g.out a) : SoundClosed g (runAll g status) := by
  have h : Coherent g (runAll g status) ∧ SoundClosed g (runAll g status) := by
    apply runAll_induction (P := fun w => Coherent g w ∧ SoundClosed g w)
    · refine ⟨.start hsize, fun a ha => ?_⟩
      have hdone := ha.done
      simp [start, Array.getElem?_replicate] at hdone
    · rintro w w' ⟨coh, hcl⟩ st
      exact ⟨st.coherent coh, st.soundClosed coh hsub hcl⟩
  exact h.2

end Walk

end BuildingModel
