import BuildingModel.Proofs.Linked.Occurrence
import BuildingModel.Proofs.Walk.Breakage

/-!
# What is usable is safe to walk

After linking, the entities with status `ok` can be walked along their shape references without a check:
nothing that they need is missing, all that they need is usable itself, and no chain of needed entities
comes back to its start or goes on for ever. This holds of every file (`LinkedModel.SafeToWalk`).
-/

namespace BuildingModel

open Relation

/-- From where all chains end, no chain comes back. -/
lemma not_transGen_self {α : Type} {r : α → α → Prop} {a : α} (hacc : Acc r a) : ¬ TransGen r a a := by
  have htrans := hacc.transGen
  clear hacc
  induction htrans with
  | intro x _ ih => exact fun h => ih x h h

namespace LinkedModel

/-- The references that a model is walked along. -/
def references (m : LinkedModel) : References := .ofEntities m.entities

/-- The shape of the entity at `a` needs the entity at `b`: a link to it stands inside the shape, and it
is of a kind that can give a shape. -/
def NeedsForShape (m : LinkedModel) (a b : Handle) : Prop :=
  ∃ e t, m.get? a = some e ∧ m.get? b = some t ∧ e.InShape (.link b) ∧ t.kind.isNonGeometric = false

/-- The shape references between usable entities. -/
def UsableNeeds (m : LinkedModel) (a b : Handle) : Prop :=
  m.statusOf a = .ok ∧ m.statusOf b = .ok ∧ m.NeedsForShape a b

/-- The usable entities of a model can be walked along their shape references. -/
structure SafeToWalk (m : LinkedModel) : Prop where
  /-- Nothing that a usable entity needs is missing. -/
  complete : ∀ h e, m.get? h = some e → m.statusOf h = .ok → ∀ id, ¬ e.InShape (.dangling id)
  /-- What a usable entity needs is usable. -/
  closed : ∀ a b, m.statusOf a = .ok → m.NeedsForShape a b → m.statusOf b = .ok
  /-- No usable entity needs itself, not even through others. -/
  acyclic : ∀ h, ¬ TransGen m.UsableNeeds h h
  /-- Following shape references from a usable entity ends. -/
  ends : ∀ h, m.statusOf h = .ok → Acc (fun b a => m.NeedsForShape a b) h

/-- Only places below the size hold entities. -/
lemma lt_size_of_get? {m : LinkedModel} {h : Handle} {e : LinkedEntity} (he : m.get? h = some e) :
    h < m.entities.size :=
  (Array.getElem?_eq_some_iff.mp he).1

/-- There are references for each entity. -/
lemma size_all_references (m : LinkedModel) : m.references.all.size = m.entities.size := by
  simp [references, References.ofEntities]

/-- The references of an entity are its links. -/
lemma out_references {m : LinkedModel} {h : Handle} {e : LinkedEntity} (he : m.get? h = some e) :
    m.references.out h = e.links := by
  simp only [get?] at he
  simp [references, References.ofEntities, References.out, he]

/-- Those of its shape are the links in its shape to what can give a shape. -/
lemma shapeOut_references {m : LinkedModel} {h : Handle} {e : LinkedEntity} (he : m.get? h = some e) :
    m.references.shapeOut h = (LinkedValue.linksOf e.shapeParams).filter fun b =>
      !((m.get? b).map (·.kind.isNonGeometric)).getD false := by
  simp only [get?] at he
  simp [references, References.ofEntities, References.shapeOut, he, get?]

/-- Where there is no entity, there are none. -/
lemma shapeOut_of_get?_none {m : LinkedModel} {h : Handle} (he : m.get? h = none) :
    m.references.shapeOut h = [] := by
  simp only [get?] at he
  simp [references, References.ofEntities, References.shapeOut, he]

/-- The references of a shape are references. -/
lemma shapeOut_subset (m : LinkedModel) (h : Handle) : m.references.shapeOut h ⊆ m.references.out h := by
  intro b hb
  cases he : m.get? h with
  | none => simp [shapeOut_of_get?_none he] at hb
  | some e =>
    rw [shapeOut_references he] at hb
    rw [out_references he]
    exact LinkedEntity.mem_links_of_mem_shapeLinks (List.mem_of_mem_filter hb)

/-- What a shape needs is where its references lead. -/
lemma needs_references_iff {m : LinkedModel} {a b : Handle} :
    m.references.Needs a b ↔ m.NeedsForShape a b := by
  unfold References.Needs
  rw [size_all_references]
  constructor
  · rintro ⟨hb, hlt⟩
    cases he : m.get? a with
    | none => simp [shapeOut_of_get?_none he] at hb
    | some e =>
      have ht : m.get? b = some m.entities[b] := Array.getElem?_eq_getElem hlt
      rw [shapeOut_references he, List.mem_filter, LinkedEntity.mem_shapeLinks_iff, ht] at hb
      exact ⟨e, _, he, ht, hb.1, by simpa using hb.2⟩
  · rintro ⟨e, t, he, ht, hin, hkind⟩
    refine ⟨?_, lt_size_of_get? ht⟩
    rw [shapeOut_references he, List.mem_filter, LinkedEntity.mem_shapeLinks_iff, ht]
    exact ⟨hin, by simp [hkind]⟩

end LinkedModel

namespace ExchangeFile

open LinkedModel

/-- The status of an entity is what the walk leaves. -/
lemma link_statusOf (file : ExchangeFile) (h : Handle) :
    file.link.statusOf h =
      (Walk.runAll file.link.references (file.link.entities.map (·.ownStatus))).statusAt h := rfl

/-- There is a status for each entity. -/
lemma size_ownStatus (file : ExchangeFile) :
    (file.link.entities.map (·.ownStatus)).size = file.link.references.all.size := by
  rw [size_all_references, Array.size_map]

/-- An entity that ends usable is not missing anything itself. -/
lemma ownStatus_of_ok {file : ExchangeFile} {h : Handle} {e : LinkedEntity}
    (he : file.link.get? h = some e) (hok : file.link.statusOf h = .ok) : e.ownStatus = .ok := by
  rw [link_statusOf] at hok
  have hown := Walk.runAll_statusAt_ok hok
  simp only [LinkedModel.get?] at he
  simpa [he] using hown

/-- The usable entities of a linked file have all been left by the walk, and are sound there. -/
lemma sound_of_ok {file : ExchangeFile} {h : Handle} (hlt : h < file.link.entities.size)
    (hok : file.link.statusOf h = .ok) :
    (Walk.runAll file.link.references (file.link.entities.map (·.ownStatus))).Sound h := by
  refine ⟨Walk.runAll_done file.size_ownStatus ?_, hok⟩
  rw [size_all_references]
  exact hlt

/-- What a linked file marks as usable is safe to walk. -/
theorem link_safeToWalk (file : ExchangeFile) : file.link.SafeToWalk := by
  have hclosed : Walk.SoundClosed file.link.references
      (Walk.runAll file.link.references (file.link.entities.map (·.ownStatus))) :=
    Walk.runAll_soundClosed file.size_ownStatus file.link.shapeOut_subset
  have hneeds : (fun b a => file.link.references.Needs a b) = fun b a => file.link.NeedsForShape a b := by
    funext b a
    exact propext needs_references_iff
  have ends : ∀ h, file.link.statusOf h = .ok → Acc (fun b a => file.link.NeedsForShape a b) h := by
    intro h hok
    by_cases hlt : h < file.link.entities.size
    · rw [← hneeds]
      exact (hclosed h (sound_of_ok hlt hok)).2
    · refine .intro h fun b hb => ?_
      obtain ⟨e, -, he, -⟩ := hb
      exact absurd (lt_size_of_get? he) hlt
  refine ⟨?_, ?_, ?_, ends⟩
  · intro h e he hok id hid
    have hown := ownStatus_of_ok he hok
    rw [LinkedEntity.ownStatus, if_pos (LinkedEntity.hasDanglingShape_iff.mpr ⟨id, hid⟩)] at hown
    cases hown
  · intro a b hok hab
    obtain ⟨e, t, he, -⟩ := id hab
    have hs := sound_of_ok (lt_size_of_get? he) hok
    exact ((hclosed a hs).1 b (needs_references_iff.mpr hab)).ok
  · -- a cycle of usable entities would be an endless chain
    intro h hcycle
    have hok : file.link.statusOf h = .ok := by
      obtain ⟨b, hb, -⟩ := TransGen.head'_iff.mp hcycle
      exact hb.1
    have hself : TransGen (fun b a => file.link.NeedsForShape a b) h h :=
      transGen_swap.mpr (TransGen.mono (fun _ _ hn => hn.2.2) h h hcycle)
    exact not_transGen_self (ends h hok) hself

end ExchangeFile

end BuildingModel
