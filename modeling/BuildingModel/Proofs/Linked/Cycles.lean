import BuildingModel.Proofs.Linked.SafeToWalk
import BuildingModel.Proofs.Walk.FirstTrail

/-!
# Which entities are marked as cyclic

An entity of a linked file ends `cyclic` exactly if a first trail closes it
(`References.ClosedByFirstTrail`), and then it lies on a cycle of references. Every cycle has such an
entity, but not all entities of a cycle need be marked: when cycles overlap, an entity whose cycle closes
through an entity that has already been left is only broken, as in the file `overlappingCycles`.
-/

namespace BuildingModel

open Relation

namespace LinkedModel

/-- A link to the entity at `b` stands inside a parameter of the entity at `a`. -/
def RefersTo (m : LinkedModel) (a b : Handle) : Prop :=
  ∃ e t, m.get? a = some e ∧ m.get? b = some t ∧ ∃ v ∈ e.params, LinkedValue.Within (.link b) v

/-- The entity lies on a cycle of references. -/
def OnCycle (m : LinkedModel) (h : Handle) : Prop := TransGen m.RefersTo h h

/-- The references of the walk are those of the model. -/
lemma refers_references_iff {m : LinkedModel} {a b : Handle} :
    m.references.Refers a b ↔ m.RefersTo a b := by
  have hlinks : ∀ e : LinkedEntity, b ∈ e.links ↔ ∃ v ∈ e.params, LinkedValue.Within (.link b) v := by
    intro e
    simp only [LinkedEntity.links, LinkedValue.linksOf_eq, List.mem_flatMap, LinkedValue.mem_links_iff]
  unfold References.Refers
  rw [size_all_references]
  constructor
  · rintro ⟨hb, hlt⟩
    cases he : m.get? a with
    | none =>
      simp only [get?] at he
      simp [references, References.ofEntities, References.out, he] at hb
    | some e =>
      rw [out_references he, hlinks] at hb
      exact ⟨e, m.entities[b], he, Array.getElem?_eq_getElem hlt, hb⟩
  · rintro ⟨e, t, he, ht, hb⟩
    refine ⟨?_, lt_size_of_get? ht⟩
    rw [out_references he, hlinks]
    exact hb

end LinkedModel

namespace ExchangeFile

open LinkedModel Exchange

/-- Before the walk, an entity is sound or misses something. -/
lemma ownStatus_ne_cyclic (file : ExchangeFile) (i : Nat) :
    (file.link.entities.map (·.ownStatus)).getD i .ok ≠ .cyclic := by
  rw [Array.getD_eq_getD_getElem?, Array.getElem?_map]
  cases file.link.entities[i]? with
  | none => simp
  | some e =>
    simp only [Option.map_some, Option.getD_some, LinkedEntity.ownStatus]
    split <;> simp

/-- An entity ends cyclic exactly if a first trail closes it, and then it lies on a cycle. No cycle is
without an entity that ends cyclic. -/
theorem link_cyclic_iff (file : ExchangeFile) (h : Handle) :
    (file.link.statusOf h = .cyclic ↔ file.link.references.ClosedByFirstTrail h) ∧
      (file.link.references.ClosedByFirstTrail h → file.link.OnCycle h) ∧
      ¬ TransGen (fun a b => file.link.RefersTo a b ∧ file.link.statusOf a ≠ .cyclic) h h := by
  have hcyclic : ∀ i, file.link.statusOf i = .cyclic ↔ file.link.references.ClosedByFirstTrail i := by
    intro i
    rw [link_statusOf]
    exact Walk.runAll_cyclic_iff file.size_ownStatus file.ownStatus_ne_cyclic i
  refine ⟨hcyclic h, ?_, ?_⟩
  · intro hclosed
    have hsame : file.link.references.Refers = file.link.RefersTo := by
      funext a b
      exact propext refers_references_iff
    have hcycle := hclosed.onCycle
    rw [hsame] at hcycle
    exact hcycle
  · intro hcycle
    have hlt : h < file.link.references.all.size := by
      obtain ⟨b, ⟨⟨e, -, he, -⟩, -⟩, -⟩ := TransGen.head'_iff.mp hcycle
      rw [size_all_references]
      exact lt_size_of_get? he
    have hacc := Walk.runAll_chainsEnd file.size_ownStatus file.ownStatus_ne_cyclic hlt
    refine not_transGen_self hacc (transGen_swap.mpr (TransGen.mono ?_ h h hcycle))
    rintro a b ⟨hab, hne⟩
    exact ⟨refers_references_iff.mpr hab, fun hclosed => hne ((hcyclic a).mpr hclosed)⟩

/-- Two cycles that share a reference: the second entity refers back to the first, and the third one,
which the first refers to as well, to the second. -/
def overlappingCycles : ExchangeFile where
  header := {}
  table := ((({} : EntityTable).push ⟨1, .other "A", [.ref 2, .ref 3]⟩).push ⟨2, .other "B", [.ref 1]⟩).push
    ⟨3, .other "C", [.ref 2]⟩
  log := .empty defaultProblemLimit

/-- The entities of the linked file. -/
lemma overlappingCycles_entities : overlappingCycles.link.entities =
    #[⟨1, .other "A", [.link 1, .link 2]⟩, ⟨2, .other "B", [.link 0]⟩, ⟨3, .other "C", [.link 1]⟩] := by
  simp [overlappingCycles, link, EntityTable.push, Entity.link, Value.linkAll, Value.link,
    EntityTable.position?, Std.HashMap.getElem_insert]

/-- The third entity lies on a cycle through all three, but ends broken and not cyclic. -/
theorem overlappingCycles_broken :
    overlappingCycles.link.OnCycle 2 ∧ overlappingCycles.link.statusOf 2 = .brokenDependency := by
  constructor
  · have refers {a b : Handle} {e t : LinkedEntity} (he : overlappingCycles.link.get? a = some e)
        (ht : overlappingCycles.link.get? b = some t) (hb : .link b ∈ e.params) :
        overlappingCycles.link.RefersTo a b := ⟨e, t, he, ht, .link b, hb, .here⟩
    have hget : ∀ h, overlappingCycles.link.get? h = (#[⟨1, .other "A", [.link 1, .link 2]⟩,
        ⟨2, .other "B", [.link 0]⟩, ⟨3, .other "C", [.link 1]⟩] : Array LinkedEntity)[h]? := by
      intro h
      rw [LinkedModel.get?, overlappingCycles_entities]
    have h21 := refers (hget 2) (hget 1) (by simp)
    have h10 := refers (hget 1) (hget 0) (by simp)
    have h02 := refers (hget 0) (hget 2) (by simp)
    exact .tail (.tail (.single h21) h10) h02
  · rw [link_statusOf, references, overlappingCycles_entities]
    cbv

end ExchangeFile

end BuildingModel
