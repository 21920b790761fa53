import Mathlib
import BuildingModel.Linked.Walk

/-!
# Steps of the walk

The walk as a relation between its states. `Step` has one rule for each thing that the walk can do, with
everything that is known when it does it; `runAll_steps` says that the whole walk is a sequence of such
steps, and `runAll_seen` that no entity is left out. What every step keeps therefore holds at the end of
the walk (`runAll_induction`), and no later proof opens `run` again.

The other lemmas say how a step changes the visits and the statuses.
-/

namespace BuildingModel.Walk

open Relation

variable {g : References} {w w' : Walk}

/-- The entities on the path, innermost first. -/
def nodes (w : Walk) : List Nat := w.path.map (·.node)

/-- One step of the walk. -/
inductive Step (g : References) : Walk → Walk → Prop where
  /-- The path is empty, and the first entity that is still unseen is entered. -/
  | root {w : Walk} {root : Nat} :
    w.path = [] →
    w.visits[root]? = some .unseen →
    (∀ i < root, w.visits[i]? ≠ some .unseen) →
    Step g w (w.enter g root)
  /-- A reference leads to an unseen entity. -/
  | enter {w : Walk} {node child : Nat} {todo : List Nat} {path : List Frame} :
    w.path = ⟨node, child :: todo⟩ :: path →
    w.visits[child]? = some .unseen →
    Step g w ({ w with path := ⟨node, todo⟩ :: path }.enter g child)
  /-- A reference leads back to the path. -/
  | back {w : Walk} {node child : Nat} {todo : List Nat} {path : List Frame} :
    w.path = ⟨node, child :: todo⟩ :: path →
    w.visits[child]? = some .open →
    Step g w ({ w with path := ⟨node, todo⟩ :: path }.closeCycle child)
  /-- A reference leads to an entity that is done, or to none. -/
  | pass {w : Walk} {node child : Nat} {todo : List Nat} {path : List Frame} :
    w.path = ⟨node, child :: todo⟩ :: path →
    w.visits[child]? ≠ some .unseen →
    w.visits[child]? ≠ some .open →
    Step g w { w with path := ⟨node, todo⟩ :: path }
  /-- All references of the innermost entity have been followed. -/
  | leave {w : Walk} {node : Nat} {path : List Frame} :
    w.path = ⟨node, []⟩ :: path →
    Step g w (w.leave g node path)

/-- Walking on is a sequence of steps that ends with an empty path. -/
lemma run_steps (g : References) (w : Walk) :
    ReflTransGen (Step g) w (w.run g) ∧ (w.run g).path = [] := by
  fun_induction run g w with
  | case1 w hp => exact ⟨.refl, hp⟩
  | case2 w node child todo path hp on hv ih => exact ⟨.head (.enter hp hv) ih.1, ih.2⟩
  | case3 w node child todo path hp on hv ih => exact ⟨.head (.back hp hv) ih.1, ih.2⟩
  | case4 w node child todo path hp on h1 h2 ih => exact ⟨.head (.pass hp h1 h2) ih.1, ih.2⟩
  | case5 w node path hp ih => exact ⟨.head (.leave hp) ih.1, ih.2⟩

/-- Setting a visit changes that one alone. -/
lemma getElem?_setIfInBounds {visits : Array Visit} {node : Nat} {v : Visit} (hv : visits[node]? = some v)
    (u : Visit) (i : Nat) :
    (visits.setIfInBounds node u)[i]? = if i = node then some u else visits[i]? := by
  have hlt : node < visits.size := (Array.getElem?_eq_some_iff.mp hv).1
  rw [Array.getElem?_setIfInBounds]
  by_cases hi : i = node
  · rw [if_pos hi, if_pos hi.symm, if_pos hlt]
  · rw [if_neg hi, if_neg (Ne.symm hi)]

/-- Marking members changes them alone. -/
lemma getD_foldl_setIfInBounds {α : Type} (members : List Nat) (marks : Array α) (mark default : α)
    (i : Nat) :
    (members.foldl (fun marks i => marks.setIfInBounds i mark) marks).getD i default =
      if i ∈ members ∧ i < marks.size then mark else marks.getD i default := by
  induction members generalizing marks with
  | nil => simp
  | cons m members ih =>
    rw [List.foldl_cons, ih, Array.size_setIfInBounds]
    by_cases hi : i < marks.size
    · by_cases hm : i = m
      · subst hm
        simp [hi]
      · simp [hi, hm, Ne.symm hm]
    · simp [hi]

/-- Closing a cycle marks the entities of the cycle and no others. -/
lemma statusAt_closeCycle (w : Walk) (entry i : Nat) :
    (w.closeCycle entry).statusAt i =
      if i ∈ w.segment entry ∧ i < w.status.size then .cyclic else w.statusAt i :=
  getD_foldl_setIfInBounds _ _ _ _ _

/-- Marking a cycle keeps the number of statuses. -/
lemma size_status_closeCycle (w : Walk) (entry : Nat) :
    (w.closeCycle entry).status.size = w.status.size := by
  simp only [closeCycle]
  induction w.segment entry generalizing w with
  | nil => rfl
  | cons m members ih =>
    simpa using ih { w with status := w.status.setIfInBounds m .cyclic }

/-- Leaving an entity breaks that entity, if it is sound and needs something broken, and no other. -/
lemma statusAt_leave (g : References) (w : Walk) (node : Nat) (path : List Frame) (i : Nat) :
    (w.leave g node path).statusAt i =
      if i = node ∧ i < w.status.size ∧ w.statusAt node = .ok ∧
          ∃ b ∈ g.shapeOut node, w.statusAt b ≠ .ok then .brokenDependency
      else w.statusAt i := by
  by_cases hb : w.statusAt node = .ok ∧ (g.shapeOut node).any (w.statusAt · ≠ .ok)
  · have hs : (w.leave g node path).status = w.status.setIfInBounds node .brokenDependency := by
      simp only [leave, if_pos hb]
    obtain ⟨hok, hany⟩ := hb
    have hex : ∃ b ∈ g.shapeOut node, w.statusAt b ≠ .ok := by simpa using hany
    rw [statusAt, hs]
    by_cases hi : i < w.status.size
    · by_cases hn : i = node
      · subst hn
        rw [if_pos ⟨rfl, hi, hok, hex⟩]
        simp [hi]
      · simp [statusAt, hn, hi, Ne.symm hn]
    · simp [statusAt, hi]
  · have hs : (w.leave g node path).status = w.status := by
      simp only [leave, if_neg hb]
    rw [statusAt, hs, if_neg, statusAt]
    rintro ⟨rfl, -, hok, hex⟩
    exact hb ⟨hok, by simpa using hex⟩

/-- A step keeps the numbers of visits and of statuses. -/
lemma Step.size_eq (st : Step g w w') :
    w'.visits.size = w.visits.size ∧ w'.status.size = w.status.size := by
  cases st with
  | root => simp [Walk.enter]
  | enter => simp [Walk.enter]
  | back =>
    refine ⟨rfl, ?_⟩
    rw [size_status_closeCycle]
  | pass => exact ⟨rfl, rfl⟩
  | leave =>
    refine ⟨by simp [Walk.leave], ?_⟩
    simp only [Walk.leave]
    split <;> simp

/-- What is done stays done. -/
lemma Step.done (st : Step g w w') {i : Nat} (hi : w.visits[i]? = some .done) :
    w'.visits[i]? = some .done := by
  cases st with
  | root _ hr _ =>
    rw [Walk.enter, getElem?_setIfInBounds hr, if_neg, hi]
    rintro rfl
    simp [hi] at hr
  | enter _ hc =>
    rw [Walk.enter, getElem?_setIfInBounds hc, if_neg, hi]
    rintro rfl
    simp [hi] at hc
  | back => exact hi
  | pass => exact hi
  | @leave node =>
    rw [Walk.leave, Array.getElem?_setIfInBounds]
    split
    · rename_i he
      subst he
      rw [if_pos (Array.getElem?_eq_some_iff.mp hi).1]
    · exact hi

/-- An entity becomes done only when the walk leaves it. -/
lemma Step.done_inv (st : Step g w w') {i : Nat} (hi : w'.visits[i]? = some .done) :
    w.visits[i]? = some .done ∨ ∃ path, w.path = ⟨i, []⟩ :: path ∧ w' = w.leave g i path := by
  cases st with
  | root _ hr _ =>
    rw [Walk.enter, getElem?_setIfInBounds hr] at hi
    split at hi
    · cases hi
    · exact .inl hi
  | enter _ hc =>
    rw [Walk.enter, getElem?_setIfInBounds hc] at hi
    split at hi
    · cases hi
    · exact .inl hi
  | back | pass => exact .inl hi
  | @leave node path hp =>
    by_cases hn : node = i
    · subst hn
      exact .inr ⟨path, hp, rfl⟩
    · rw [Walk.leave, Array.getElem?_setIfInBounds, if_neg hn] at hi
      exact .inl hi

/-- What has been seen stays seen. -/
lemma Step.seen (st : Step g w w') {i : Nat} (hi : w.visits[i]? ≠ some .unseen) :
    w'.visits[i]? ≠ some .unseen := by
  cases st with
  | root | enter | leave =>
    simp only [Walk.enter, Walk.leave, Array.getElem?_setIfInBounds]
    split
    · split <;> simp
    · exact hi
  | back | pass => exact hi

/-- What a step can do to a status: mark it as lying on a cycle, or break what was sound. -/
lemma Step.statusAt (st : Step g w w') (i : Nat) :
    w'.statusAt i = w.statusAt i ∨ w'.statusAt i = .cyclic ∨
      (w.statusAt i = .ok ∧ w'.statusAt i = .brokenDependency) := by
  cases st with
  | root | enter | pass => exact .inl rfl
  | back =>
    rw [statusAt_closeCycle]
    split
    · exact .inr (.inl rfl)
    · exact .inl rfl
  | leave =>
    rw [statusAt_leave]
    split
    · rename_i h
      obtain ⟨rfl, -, hok, -⟩ := h
      exact .inr (.inr ⟨hok, rfl⟩)
    · exact .inl rfl

/-- What has been marked stays marked. -/
lemma Step.cyclic (st : Step g w w') {i : Nat} (hi : w.statusAt i = .cyclic) :
    w'.statusAt i = .cyclic := by
  obtain h | h | ⟨h, -⟩ := st.statusAt i
  · rw [h, hi]
  · exact h
  · rw [hi] at h
    cases h

/-- After the first `k` entities have been walked from, none of them is unseen. -/
lemma runFrom_steps (g : References) (status : Array Status) (k : Nat) :
    ReflTransGen (Step g) (start status) ((List.range k).foldl (runFrom g) (start status)) ∧
      ((List.range k).foldl (runFrom g) (start status)).path = [] ∧
      ∀ i < k, ((List.range k).foldl (runFrom g) (start status)).visits[i]? ≠ some .unseen := by
  induction k with
  | zero => exact ⟨.refl, rfl, nofun⟩
  | succ k ih =>
    obtain ⟨steps, hpath, hseen⟩ := ih
    rw [List.range_succ, List.foldl_append, List.foldl_cons, List.foldl_nil]
    generalize (List.range k).foldl (runFrom g) (start status) = w at steps hpath hseen ⊢
    unfold runFrom
    by_cases hk : w.visits[k]? = some .unseen
    · rw [if_pos hk]
      have hroot : Step g w (w.enter g k) := .root hpath hk hseen
      obtain ⟨hrun, hend⟩ := run_steps g (w.enter g k)
      have seen : ∀ i : Nat, (w.enter g k).visits[i]? ≠ some .unseen →
          ((w.enter g k).run g).visits[i]? ≠ some .unseen := by
        intro i hi
        generalize (w.enter g k).run g = v at hrun ⊢
        induction hrun with
        | refl => exact hi
        | tail _ st ih => exact st.seen ih
      refine ⟨steps.trans (hrun.head hroot), hend, ?_⟩
      intro i hi
      apply seen
      obtain hlt | rfl := Nat.lt_succ_iff_lt_or_eq.mp hi
      · exact hroot.seen (hseen i hlt)
      · simp [Walk.enter, getElem?_setIfInBounds hk]
    · rw [if_neg hk]
      refine ⟨steps, hpath, ?_⟩
      intro i hi
      obtain hlt | rfl := Nat.lt_succ_iff_lt_or_eq.mp hi
      · exact hseen i hlt
      · exact hk

/-- The whole walk is a sequence of steps. -/
theorem runAll_steps (g : References) (status : Array Status) :
    ReflTransGen (Step g) (start status) (runAll g status) :=
  (runFrom_steps g status status.size).1

/-- What holds at the start and is kept by every step holds at the end. -/
theorem runAll_induction {P : Walk → Prop} {status : Array Status} (init : P (start status))
    (step : ∀ {w w'}, P w → Step g w w' → P w') : P (runAll g status) := by
  have steps := runAll_steps g status
  generalize runAll g status = w at steps ⊢
  induction steps with
  | refl => exact init
  | tail _ st ih => exact step ih st

/-- At the end the path is empty. -/
lemma runAll_path (g : References) (status : Array Status) : (runAll g status).path = [] :=
  (runFrom_steps g status status.size).2.1

/-- At the end everything has been seen. -/
lemma runAll_seen (g : References) (status : Array Status) {i : Nat} (hi : i < status.size) :
    (runAll g status).visits[i]? ≠ some .unseen :=
  (runFrom_steps g status status.size).2.2 i hi

end BuildingModel.Walk
