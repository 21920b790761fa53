import Mathlib
import BuildingModel.Extract.Extraction
import BuildingModel.Proofs.Exchange.Grammar

/-!
# Runs in batches

A run over groups of items gives what each item gives, in order, unless one of its looks finds it
cancelled or an item ends it; then it gives nothing. How the items are grouped does not matter. On the way the items
done so far are counted, and never more than there are.
-/

namespace BuildingModel

variable {β γ : Type}

/-! ## Groups -/

/-- The groups of a list make up the list. -/
lemma flatten_groups (size : Nat) (xs : List β) : (groups size xs).flatten = xs := by
  fun_induction groups size xs with
  | case1 => rfl
  | case2 x rest ih => rw [List.flatten_cons, ih, List.cons_append, List.take_append_drop]

/-- How many groups there are. -/
lemma length_groups (size : Nat) (xs : List β) :
    (groups size xs).length = (xs.length + size) / (size + 1) := by
  fun_induction groups size xs with
  | case1 => simp only [List.length_nil, Nat.zero_add, Nat.div_eq_of_lt (Nat.lt_succ_self size)]
  | case2 x rest ih =>
    have hstep : (rest.length + 1 + size) / (size + 1) = rest.length / (size + 1) + 1 := by
      rw [Nat.add_assoc, Nat.add_comm 1 size, Nat.add_div_right _ (Nat.succ_pos size)]
    rw [List.length_cons, ih, List.length_drop, List.length_cons, hstep]
    rcases Nat.le_total size rest.length with h | h
    · rw [Nat.sub_add_cancel h]
    · rw [Nat.sub_eq_zero_of_le h, Nat.zero_add, Nat.div_eq_of_lt (Nat.lt_succ_self size),
        Nat.div_eq_of_lt (Nat.lt_succ_of_le h)]

/-- There is a look before each group, and one at the end. -/
lemma le_length_groups_iff (size look : Nat) (xs : List β) :
    look ≤ (groups (size - 1) xs).length ↔ look * max 1 size < xs.length + max 1 size := by
  have hmax : size - 1 + 1 = max 1 size := by omega
  rw [length_groups, hmax, Nat.le_div_iff_mul_le (by omega)]
  omega

/-! ## What a run gives -/

section Handling

variable {ε : Type} {handle : β → Except ε γ} {xs : List β}

/-- If a function says what every item gives, it says what a list of items gives. -/
lemma mapM_eq_map {f : β → γ} (h : ∀ x ∈ xs, handle x = .ok (f x)) : xs.mapM handle = .ok (xs.map f) :=
  Exchange.mapM_eq_ok (List.forall₂_map_right_iff.mpr (List.forall₂_same.mpr h))

/-- If some item ends the run and all items that do give one error, a list of items gives this error. -/
lemma mapM_eq_error_of_mem {e : ε} (h : ∀ x ∈ xs, ∀ e', handle x = .error e' → e' = e)
    (hbad : ∃ x ∈ xs, handle x = .error e) : xs.mapM handle = .error e := by
  induction xs with
  | nil =>
    obtain ⟨x, hx, -⟩ := hbad
    cases hx
  | cons x xs ih =>
    obtain ⟨hx, hxs⟩ := List.forall_mem_cons.mp h
    rw [List.mapM_cons]
    cases hhandle : handle x with
    | error e' =>
      cases hx e' hhandle
      rfl
    | ok y =>
      have hrest : ∃ x ∈ xs, handle x = .error e := by
        obtain ⟨z, hz, hbad⟩ := hbad
        rcases List.mem_cons.mp hz with rfl | hz
        · rw [hhandle] at hbad
          cases hbad
        · exact ⟨z, hz, hbad⟩
      rw [ih hxs hrest]
      rfl

end Handling

section Run

variable {cancelled : CancelSchedule} {handle : β → Except ShapeError γ}

/-- How often a run looks whether it is cancelled, if it never is: before each batch, up to the first one with an item
that ends the run, and once at the end. -/
def looks (handle : β → Except ShapeError γ) : List (List β) → Nat
  | [] => 1
  | batch :: rest =>
    match batch.mapM handle with
    | .error _ => 1
    | .ok _ => looks handle rest + 1

/-- If no item ends the run, there is a look before each batch and one at the end. -/
lemma looks_eq_length {f : β → γ} {batches : List (List β)} (h : ∀ x ∈ batches.flatten, handle x = .ok (f x)) :
    looks handle batches = batches.length + 1 := by
  induction batches with
  | nil => rfl
  | cons batch rest ih =>
    rw [List.flatten_cons] at h
    have hbatch : batch.mapM handle = .ok (batch.map f) := mapM_eq_map fun x hx => h x (List.mem_append_left _ hx)
    rw [looks, hbatch, List.length_cons]
    exact congrArg (· + 1) (ih fun x hx => h x (List.mem_append_right _ hx))

/-- A run without batches looks once. -/
lemma runBatches_nil (look : Nat) (p : Progress) :
    runBatches cancelled handle look [] p = (if cancelled look then .error .cancelled else .ok [], [p]) := rfl

/-- A run looks before its first batch, and goes on after it if no item of the batch ends it. -/
lemma runBatches_cons (look : Nat) (batch : List β) (rest : List (List β)) (p : Progress) :
    runBatches cancelled handle look (batch :: rest) p =
      if cancelled look then (.error .cancelled, [p])
      else match batch.mapM handle with
        | .error e => (.error e, [p])
        | .ok results =>
          ((runBatches cancelled handle (look + 1) rest (p.advance batch.length.toUInt64)).1.map (results ++ ·),
            p :: (runBatches cancelled handle (look + 1) rest (p.advance batch.length.toUInt64)).2) := rfl

/-- A run that is never found cancelled gives what its items give. -/
lemma runBatches_open (batches : List (List β)) (look : Nat) (p : Progress)
    (hopen : ∀ k < looks handle batches, cancelled (look + k) = false) :
    (runBatches cancelled handle look batches p).1 = batches.flatten.mapM handle := by
  induction batches generalizing look p with
  | nil =>
    have hlook := hopen 0 Nat.zero_lt_one
    rw [Nat.add_zero] at hlook
    rw [runBatches_nil, hlook]
    rfl
  | cons batch rest ih =>
    have hpos : 0 < looks handle (batch :: rest) := by
      rw [looks]
      split <;> omega
    have hlook := hopen 0 hpos
    rw [Nat.add_zero] at hlook
    rw [runBatches_cons, hlook, if_neg Bool.false_ne_true, List.flatten_cons, List.mapM_append]
    rw [looks] at hopen
    cases hbatch : batch.mapM handle with
    | error e => rfl
    | ok results =>
      rw [hbatch] at hopen
      have hrest : ∀ k < looks handle rest, cancelled (look + 1 + k) = false := by
        intro k hk
        rw [Nat.add_assoc, Nat.add_comm 1 k]
        exact hopen (k + 1) (Nat.succ_lt_succ hk)
      simp only [ih (look + 1) _ hrest]
      cases rest.flatten.mapM handle with
      | error e => rfl
      | ok more => rfl

/-- A run that is found cancelled gives nothing. -/
lemma runBatches_cancelled (batches : List (List β)) (look : Nat) (p : Progress)
    (hcancelled : ∃ k < looks handle batches, cancelled (look + k) = true) :
    (runBatches cancelled handle look batches p).1 = .error .cancelled := by
  induction batches generalizing look p with
  | nil =>
    obtain ⟨k, hk, hlook⟩ := hcancelled
    rw [Nat.lt_one_iff.mp hk, Nat.add_zero] at hlook
    rw [runBatches_nil, if_pos hlook]
  | cons batch rest ih =>
    obtain ⟨k, hk, hfound⟩ := hcancelled
    rw [runBatches_cons]
    split
    · rfl
    · rename_i hlook
      cases k with
      | zero => exact absurd hfound hlook
      | succ k =>
        rw [looks] at hk
        cases hbatch : batch.mapM handle with
        | error e =>
          rw [hbatch] at hk
          exact absurd hk (by simp)
        | ok results =>
          rw [hbatch] at hk
          rw [Nat.add_comm k 1, ← Nat.add_assoc] at hfound
          simp only [ih (look + 1) _ ⟨k, Nat.lt_of_succ_lt_succ hk, hfound⟩]
          rfl

/-! ## What a run counts -/

/-- Items that are counted one after the other are counted together. -/
lemma Progress.advance_advance (p : Progress) (a b : Nat) :
    (p.advance a.toUInt64).advance b.toUInt64 = p.advance (a + b).toUInt64 := by
  simp only [Progress.advance, Nat.toUInt64, UInt64.ofNat_add, UInt64.add_assoc]

/-- No items change nothing. -/
lemma Progress.advance_zero (p : Progress) : p.advance (0 : Nat).toUInt64 = p := by
  simp [Progress.advance]

/-- At any time some of the items have been counted. -/
lemma counted_of_mem_trail (batches : List (List β)) (look : Nat) (p q : Progress)
    (hq : q ∈ (runBatches cancelled handle look batches p).2) :
    ∃ k ≤ batches.flatten.length, q = p.advance k.toUInt64 := by
  induction batches generalizing look p with
  | nil =>
    rw [runBatches_nil, List.mem_singleton] at hq
    exact ⟨0, Nat.zero_le _, by rw [p.advance_zero, hq]⟩
  | cons batch rest ih =>
    have hstart : q = p → ∃ k ≤ (batch :: rest).flatten.length, q = p.advance k.toUInt64 := fun hqp =>
      ⟨0, Nat.zero_le _, by rw [p.advance_zero, hqp]⟩
    rw [runBatches_cons] at hq
    split at hq
    · exact hstart (List.mem_singleton.mp hq)
    · split at hq
      · exact hstart (List.mem_singleton.mp hq)
      · rcases List.mem_cons.mp hq with hqp | hrest
        · exact hstart hqp
        · obtain ⟨k, hk, rfl⟩ := ih (look + 1) _ hrest
          refine ⟨batch.length + k, ?_, p.advance_advance _ _⟩
          rw [List.flatten_cons, List.length_append]
          omega

/-- A run that gives something has counted all items. -/
lemma counted_of_run {results : List γ} (batches : List (List β)) (look : Nat) (p : Progress)
    (hrun : (runBatches cancelled handle look batches p).1 = .ok results) :
    (runBatches cancelled handle look batches p).2.getLast? =
      some (p.advance batches.flatten.length.toUInt64) := by
  induction batches generalizing look p results with
  | nil =>
    rw [runBatches_nil, List.flatten_nil, List.length_nil, p.advance_zero]
    rfl
  | cons batch rest ih =>
    rw [runBatches_cons] at hrun ⊢
    by_cases hlook : cancelled look = true
    · rw [if_pos hlook] at hrun
      cases hrun
    · rw [if_neg hlook] at hrun ⊢
      cases hbatch : batch.mapM handle with
      | error e =>
        rw [hbatch] at hrun
        cases hrun
      | ok made =>
        rw [hbatch] at hrun
        cases hmore : (runBatches cancelled handle (look + 1) rest (p.advance batch.length.toUInt64)).1 with
        | error e =>
          simp only [hmore] at hrun
          cases hrun
        | ok more =>
          have hlast := ih (look + 1) _ hmore
          rw [Progress.advance_advance, ← List.length_append, ← List.flatten_cons] at hlast
          simp only [List.getLast?_cons, hlast, Option.getD_some]

end Run

end BuildingModel
