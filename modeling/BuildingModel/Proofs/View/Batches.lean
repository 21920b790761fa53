import Mathlib
import BuildingModel.View.Visibility

/-!
# Grouping objects into batches

Objects are put into batches one after the other. `Added` says what one step can do: a batch with the same
digest takes the object in, or the object opens a batch of its own at the end. `Grouped` is what every step
keeps: the batches have different digests, each holds exactly the objects with its digest, in order, and
stands where its first object has put it.
-/

namespace BuildingModel.Batch

variable {α : Type}

/-- What becomes of some batches when a batch is added to them. -/
inductive Added (x : Batch α) : List (Batch α) → List (Batch α) → Prop where
  | fresh {bs} :
    x.hash ∉ bs.map (·.hash) →
    Added x bs (bs ++ [x])
  | joined {before b after} :
    b.hash = x.hash →
    Added x (before ++ b :: after) (before ++ { b with instances := b.instances ++ x.instances } :: after)

/-- A batch joins the one with its digest, or comes last. -/
lemma added_addToBatches (x : Batch α) (bs : List (Batch α)) : Added x bs (addToBatches x bs) := by
  induction bs with
  | nil => exact .fresh List.not_mem_nil
  | cons b bs ih =>
    rw [addToBatches]
    split
    · rename_i hb
      exact @Added.joined α x [] b bs hb
    · rename_i hb
      generalize addToBatches x bs = bs' at ih ⊢
      cases ih with
      | fresh hne =>
        apply @Added.fresh α x (b :: bs)
        rw [List.map_cons, List.mem_cons, not_or]
        exact ⟨Ne.symm hb, hne⟩
      | @joined before c after hc => exact @Added.joined α x (b :: before) c after hc

/-- Put batches together, one after the other. -/
def group (singles : List (Batch α)) : List (Batch α) :=
  singles.foldl (fun bs b => addToBatches b bs) []

/-- The keys of all objects of some batches. -/
def keysOf (bs : List (Batch α)) : List ObjectKey := bs.flatMap fun b => b.instances.map (·.object)

lemma keysOf_append (bs bs' : List (Batch α)) : keysOf (bs ++ bs') = keysOf bs ++ keysOf bs' :=
  List.flatMap_append

lemma keysOf_cons (b : Batch α) (bs : List (Batch α)) :
    keysOf (b :: bs) = b.instances.map (·.object) ++ keysOf bs :=
  List.flatMap_cons

/-- The first object of `b` comes before the first object of `c`. -/
def Before (b c : Batch α) : Prop :=
  ∀ i ∈ b.instances.head?, ∀ j ∈ c.instances.head?, i.object < j.object

/-- The batches hold what the single ones hold. -/
structure Grouped (singles bs : List (Batch α)) : Prop where
  nodup : (bs.map (·.hash)).Nodup
  complete : ∀ x ∈ singles, x.hash ∈ bs.map (·.hash)
  instances : ∀ b ∈ bs, b.instances = (singles.filter (·.hash = b.hash)).flatMap (·.instances)
  /-- A batch is drawn as its first object asks for. -/
  leader : ∀ b ∈ bs, ∃ x ∈ singles, x.hash = b.hash ∧ x.slot = b.slot ∧ x.level = b.level
  ne_nil : ∀ b ∈ bs, b.instances ≠ []
  keys : (keysOf bs).Perm (keysOf singles)
  ordered : bs.Pairwise Before

/-! ## One more object -/

variable {singles bs bs' before after : List (Batch α)} {x b : Batch α}

/-- A batch with another digest is left out. -/
lemma filter_append_of_ne {hash : UInt64} (hx : x.hash ≠ hash) :
    (singles ++ [x]).filter (·.hash = hash) = singles.filter (·.hash = hash) := by
  simp [hx]

/-- A batch with the digest comes last. -/
lemma filter_append_self :
    (singles ++ [x]).filter (·.hash = x.hash) = singles.filter (·.hash = x.hash) ++ [x] := by
  simp

/-- What holds of all holds of the one in the middle and of the others. -/
lemma forall_mem_middle {P : Batch α → Prop} :
    (∀ c ∈ before ++ b :: after, P c) ↔ P b ∧ ∀ c ∈ before ++ after, P c := by
  simp only [List.perm_middle.mem_iff, List.forall_mem_cons]

namespace Grouped

/-- A batch with a new digest keeps the grouping. -/
lemma fresh (hg : Grouped singles bs) (hx : x.instances ≠ [])
    (hlater : ∀ k ∈ keysOf singles, ∀ i ∈ x.instances, k < i.object) (hne : x.hash ∉ bs.map (·.hash)) :
    Grouped (singles ++ [x]) (bs ++ [x]) := by
  have hold : ∀ b ∈ bs, x.hash ≠ b.hash := fun b hb h => hne (h ▸ List.mem_map_of_mem hb)
  have hnone : singles.filter (·.hash = x.hash) = [] := by
    rw [List.filter_eq_nil_iff]
    intro y hy hyx
    rw [decide_eq_true_eq] at hyx
    exact hne (hyx ▸ hg.complete y hy)
  refine ⟨?_, ?_, ?_, ?_, ?_, ?_, ?_⟩
  · rw [List.map_append, List.nodup_append']
    exact ⟨hg.nodup, List.nodup_singleton _, by simpa using hne⟩
  · rw [List.forall_mem_append, List.forall_mem_singleton, List.map_append]
    exact ⟨fun y hy => List.mem_append_left _ (hg.complete y hy), by simp⟩
  · rw [List.forall_mem_append, List.forall_mem_singleton, filter_append_self, hnone]
    refine ⟨fun b hb => ?_, by simp⟩
    rw [filter_append_of_ne (hold b hb)]
    exact hg.instances b hb
  · rw [List.forall_mem_append, List.forall_mem_singleton]
    refine ⟨fun b hb => ?_, x, by simp, rfl, rfl, rfl⟩
    obtain ⟨y, hy, h⟩ := hg.leader b hb
    exact ⟨y, List.mem_append_left _ hy, h⟩
  · rw [List.forall_mem_append, List.forall_mem_singleton]
    exact ⟨hg.ne_nil, hx⟩
  · rw [keysOf_append, keysOf_append]
    exact hg.keys.append_right _
  · rw [List.pairwise_append]
    refine ⟨hg.ordered, List.pairwise_singleton _ _, ?_⟩
    rintro b hb c hc i hi j hj
    rw [List.mem_singleton.mp hc] at hj
    have hkey : i.object ∈ keysOf bs :=
      List.mem_flatMap.mpr ⟨b, hb, List.mem_map_of_mem (List.mem_of_mem_head? hi)⟩
    exact hlater _ (hg.keys.mem_iff.mp hkey) j (List.mem_of_mem_head? hj)

/-- A batch that joins another one keeps it. -/
lemma joined (hg : Grouped singles (before ++ b :: after)) (hb : b.hash = x.hash) :
    Grouped (singles ++ [x])
      (before ++ { b with instances := b.instances ++ x.instances } :: after) := by
  obtain ⟨hnodup, hcomplete, hinstances, hleader, hne, hkeys, hordered⟩ := hg
  rw [forall_mem_middle] at hinstances hleader hne
  have hhashes : (before ++ { b with instances := b.instances ++ x.instances } :: after).map (·.hash) =
      (before ++ b :: after).map (·.hash) := by simp
  have hother : ∀ c ∈ before ++ after, x.hash ≠ c.hash := by
    intro c hc h
    rw [List.map_append, List.map_cons, List.nodup_middle, List.nodup_cons, ← List.map_append] at hnodup
    exact hnodup.1 (hb.trans h ▸ List.mem_map_of_mem hc)
  -- the first object of the batch stays the first
  have hhead : (b.instances ++ x.instances).head? = b.instances.head? :=
    List.head?_append_of_ne_nil _ hne.1
  refine ⟨?_, ?_, ?_, ?_, ?_, ?_, ?_⟩
  · rw [hhashes]
    exact hnodup
  · rw [List.forall_mem_append, List.forall_mem_singleton, hhashes]
    exact ⟨hcomplete, by simp [hb]⟩
  · rw [forall_mem_middle]
    constructor
    · simp only [hb, filter_append_self, List.flatMap_append, List.flatMap_singleton]
      rw [← hb, ← hinstances.1]
    · intro c hc
      rw [filter_append_of_ne (hother c hc)]
      exact hinstances.2 c hc
  · rw [forall_mem_middle]
    constructor
    · obtain ⟨y, hy, h⟩ := hleader.1
      exact ⟨y, List.mem_append_left _ hy, h⟩
    · intro c hc
      obtain ⟨y, hy, h⟩ := hleader.2 c hc
      exact ⟨y, List.mem_append_left _ hy, h⟩
  · rw [forall_mem_middle]
    exact ⟨List.append_ne_nil_of_left_ne_nil hne.1 _, hne.2⟩
  · rw [keysOf_append singles]
    refine .trans ?_ (hkeys.append_right _)
    simp only [keysOf_append, keysOf_cons, List.map_append, List.append_assoc]
    apply List.Perm.append_left
    apply List.Perm.append_left
    simpa [keysOf] using List.perm_append_comm
  · rw [List.pairwise_append, List.pairwise_cons] at hordered ⊢
    simp only [Before, hhead, List.forall_mem_cons] at hordered ⊢
    exact hordered

/-- One more object that comes after all others. -/
theorem step (hg : Grouped singles bs) (hx : x.instances ≠ [])
    (hlater : ∀ k ∈ keysOf singles, ∀ i ∈ x.instances, k < i.object) (hadd : Added x bs bs') :
    Grouped (singles ++ [x]) bs' := by
  cases hadd with
  | fresh hne => exact hg.fresh hx hlater hne
  | joined hb => exact hg.joined hb

end Grouped

/-- Objects that come in order are grouped into batches. -/
theorem grouped_group (hne : ∀ x ∈ singles, x.instances ≠ [])
    (hkeys : (keysOf singles).Pairwise (· < ·)) : Grouped singles (group singles) := by
  induction singles using List.reverseRecOn with
  | nil => exact ⟨List.nodup_nil, nofun, nofun, nofun, nofun, .refl _, .nil⟩
  | append_singleton singles x ih =>
    rw [List.forall_mem_append, List.forall_mem_singleton] at hne
    rw [keysOf_append, List.pairwise_append] at hkeys
    obtain ⟨hsingles, -, hlater⟩ := hkeys
    have hg := ih hne.1 hsingles
    rw [group, List.foldl_append]
    apply hg.step hne.2 ?_ (added_addToBatches x _)
    intro k hk i hi
    apply hlater k hk
    simpa [keysOf] using ⟨i, hi, rfl⟩

/-- The objects of a batch stand in the order in which they came. -/
lemma Grouped.sorted (hg : Grouped singles bs) (hkeys : (keysOf singles).Pairwise (· < ·)) (hb : b ∈ bs) :
    (b.instances.map (·.object)).Pairwise (· < ·) := by
  rw [hg.instances b hb, List.map_flatMap]
  exact hkeys.sublist (List.filter_sublist.flatMap _)

/-- What is in a batch comes from a single one with its digest. -/
lemma Grouped.exists_single (hg : Grouped singles bs) (hb : b ∈ bs) {i : Instance α}
    (hi : i ∈ b.instances) : ∃ x ∈ singles, x.hash = b.hash ∧ i ∈ x.instances := by
  rw [hg.instances b hb] at hi
  obtain ⟨x, hx, hi⟩ := List.mem_flatMap.mp hi
  rw [List.mem_filter, decide_eq_true_eq] at hx
  exact ⟨x, hx.1, hx.2, hi⟩

end BuildingModel.Batch
