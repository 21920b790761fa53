import Mathlib.Data.List.Nodup
import Mathlib.Logic.Relation

/-!
# Going depth first

A visit of a graph that goes through the parts of whatever it meets before it goes on, and passes over what it
has met before. It meets nothing twice (`DepthFirst.nodup`), and from nothing seen it meets exactly what can be
reached (`DepthFirst.mem_iff`), whatever circles there are.
-/

namespace BuildingModel

open Relation

/-- When `seen` have been visited, going through `todo` depth first visits `order`. -/
inductive DepthFirst {α : Type} (parts : α → List α) : (seen todo order : List α) → Prop where
  | done {seen} :
    DepthFirst parts seen [] []
  | skip {seen a todo order} :
    a ∈ seen →
    DepthFirst parts seen todo order →
    DepthFirst parts seen (a :: todo) order
  | visit {seen a todo below after} :
    a ∉ seen →
    DepthFirst parts (seen ++ [a]) (parts a) below →
    DepthFirst parts (seen ++ a :: below) todo after →
    DepthFirst parts seen (a :: todo) (a :: (below ++ after))

namespace DepthFirst

variable {α : Type} {parts : α → List α} {seen todo order : List α}

/-- Of two lists in a row, the second is gone through when all of the first has been visited. -/
lemma split {xs ys : List α} (h : DepthFirst parts seen (xs ++ ys) order) :
    ∃ first rest, order = first ++ rest ∧ DepthFirst parts seen xs first ∧
      DepthFirst parts (seen ++ first) ys rest := by
  generalize htodo : xs ++ ys = todo at h
  induction h generalizing xs with
  | done =>
    obtain ⟨rfl, rfl⟩ := List.append_eq_nil_iff.mp htodo
    exact ⟨[], [], rfl, .done, .done⟩
  | @skip seen a todo order ha h ih =>
    cases xs with
    | nil =>
      cases htodo
      exact ⟨[], order, rfl, .done, by simpa using .skip ha h⟩
    | cons x xs =>
      cases htodo
      obtain ⟨first, rest, rfl, hfirst, hrest⟩ := ih rfl
      exact ⟨first, rest, rfl, .skip ha hfirst, hrest⟩
  | @visit seen a todo below after ha hbelow hafter _ ih =>
    cases xs with
    | nil =>
      cases htodo
      exact ⟨[], _, rfl, .done, by simpa using .visit ha hbelow hafter⟩
    | cons x xs =>
      cases htodo
      obtain ⟨first, rest, rfl, hfirst, hrest⟩ := ih rfl
      exact ⟨a :: (below ++ first), rest, by simp, .visit ha hbelow hfirst, by simpa using hrest⟩

/-- Nothing is visited twice. -/
lemma nodup (h : DepthFirst parts seen todo order) : order.Nodup ∧ ∀ a ∈ order, a ∉ seen := by
  induction h with
  | done => simp
  | skip _ _ ih => exact ih
  | @visit seen a todo below after ha _ _ ihbelow ihafter =>
    obtain ⟨hbelow, hnew⟩ := ihbelow
    obtain ⟨hafter, hnew'⟩ := ihafter
    simp only [List.mem_append, List.mem_cons, not_or] at hnew hnew'
    constructor
    · rw [List.nodup_cons, List.mem_append, List.nodup_append]
      refine ⟨?_, hbelow, hafter, ?_⟩
      · rintro (h | h)
        · exact (hnew a h).2.1 rfl
        · exact (hnew' a h).2.1 rfl
      · rintro b hb c hc rfl
        exact (hnew' b hc).2.2 hb
    · intro b hb
      simp only [List.mem_cons, List.mem_append] at hb
      obtain rfl | hb | hb := hb
      · exact ha
      · exact (hnew b hb).1
      · exact (hnew' b hb).1

/-- Afterwards everything in the list has been visited, and so have the parts of all that was visited. -/
lemma closed (h : DepthFirst parts seen todo order) :
    (∀ a ∈ todo, a ∈ seen ++ order) ∧ ∀ a ∈ order, ∀ b ∈ parts a, b ∈ seen ++ order := by
  induction h with
  | done => simp
  | skip ha _ ih =>
    refine ⟨?_, ih.2⟩
    intro b hb
    obtain rfl | hb := List.mem_cons.mp hb
    · exact List.mem_append_left _ ha
    · exact ih.1 b hb
  | @visit seen a todo below after _ _ _ ihbelow ihafter =>
    have hbelow : seen ++ [a] ++ below = seen ++ a :: below := by simp
    have hafter : seen ++ a :: (below ++ after) = seen ++ a :: below ++ after := by simp
    rw [hbelow] at ihbelow
    rw [hafter]
    constructor
    · intro b hb
      obtain rfl | hb := List.mem_cons.mp hb
      · exact List.mem_append_left _ (List.mem_append_right _ List.mem_cons_self)
      · exact ihafter.1 b hb
    · intro b hb c hc
      simp only [List.mem_cons, List.mem_append] at hb
      obtain rfl | hb | hb := hb
      · exact List.mem_append_left _ (ihbelow.1 c hc)
      · exact List.mem_append_left _ (ihbelow.2 b hb c hc)
      · exact ihafter.2 b hb c hc

/-- Whatever is visited can be reached from the list. -/
lemma reaches (h : DepthFirst parts seen todo order) :
    ∀ a ∈ order, ∃ t ∈ todo, ReflTransGen (fun a b => b ∈ parts a) t a := by
  induction h with
  | done => simp
  | skip _ _ ih =>
    intro b hb
    obtain ⟨t, ht, hreach⟩ := ih b hb
    exact ⟨t, List.mem_cons_of_mem _ ht, hreach⟩
  | @visit seen a todo below after _ _ _ ihbelow ihafter =>
    intro b hb
    simp only [List.mem_cons, List.mem_append] at hb
    obtain rfl | hb | hb := hb
    · exact ⟨b, List.mem_cons_self, .refl⟩
    · obtain ⟨t, ht, hreach⟩ := ihbelow b hb
      exact ⟨a, List.mem_cons_self, .head ht hreach⟩
    · obtain ⟨t, ht, hreach⟩ := ihafter b hb
      exact ⟨t, List.mem_cons_of_mem _ ht, hreach⟩

/-- From nothing seen, exactly what can be reached is visited. -/
lemma mem_iff (h : DepthFirst parts [] todo order) {a : α} :
    a ∈ order ↔ ∃ t ∈ todo, ReflTransGen (fun a b => b ∈ parts a) t a := by
  refine ⟨h.reaches a, ?_⟩
  rintro ⟨t, ht, hreach⟩
  obtain ⟨htodo, hparts⟩ := h.closed
  simp only [List.nil_append] at htodo hparts
  induction hreach with
  | refl => exact htodo t ht
  | tail _ hab ih => exact hparts _ ih _ hab

end DepthFirst

end BuildingModel
