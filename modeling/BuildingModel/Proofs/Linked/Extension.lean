import BuildingModel.Proofs.Exchange.Table
import BuildingModel.Proofs.Linked.Part
import BuildingModel.Proofs.Linked.StatusCauses

/-!
# Files with entities added

Entities with new numbers are added to the end of a file, and nothing in the file refers to them. The linked
file is then part of the larger linked file (`Fresh.partOf`). An entity of it is consumed there if it was
consumed before, or if an addition that is no relationship refers to it (`Fresh.isConsumed_iff`).
-/

namespace BuildingModel

open Exchange

mutual
/-- How a value is linked depends only on where its references are found. -/
theorem Value.link_congr {find find' : EntityId → Option Handle} :
    (v : Value) → (∀ id ∈ v.refs, find' id = find id) → v.link find' = v.link find
  | .ref id, h => by
    rw [link, link, h id (List.mem_singleton_self id)]
  | .list items, h => by
    rw [link, link, linkAll_congr items h]
  | .typed name args, h => by
    rw [link, link, linkAll_congr args h]
  | .integer _, _ | .real _, _ | .text _, _ | .enum _, _ | .omitted, _ | .derived, _ => rfl

/-- Values are linked alike if their references are found alike. -/
theorem Value.linkAll_congr {find find' : EntityId → Option Handle} :
    (vs : List Value) → (∀ id ∈ refsOf vs, find' id = find id) → linkAll find' vs = linkAll find vs
  | [], _ => rfl
  | v :: vs, h => by
    rw [linkAll, linkAll, link_congr v fun id hid => h id (List.mem_append_left _ hid),
      linkAll_congr vs fun id hid => h id (List.mem_append_right _ hid)]
end

namespace ExchangeFile

open LinkedModel

/-- The file with entities added at its end. -/
def extend (file : ExchangeFile) (additions : List Entity) : ExchangeFile :=
  { file with table := additions.foldl EntityTable.push file.table }

/-- The entities have numbers of their own, which nothing in the file refers to. -/
structure Fresh (file : ExchangeFile) (additions : List Entity) : Prop where
  sound : file.table.Sound
  distinct : (file.entities.map (·.id) ++ additions.map (·.id)).Nodup
  unreferenced : ∀ e ∈ file.entities, ∀ a ∈ additions, a.id ∉ Value.refsOf e.params

variable {file : ExchangeFile} {additions : List Entity} {h : Handle} {e : LinkedEntity}

/-- Additions come last. -/
lemma entities_extend (file : ExchangeFile) (additions : List Entity) :
    (file.extend additions).entities = file.entities ++ additions :=
  EntityTable.entities_foldl_push additions file.table

/-- The linked entities are those of the file, linked. -/
lemma entityList_link (file : ExchangeFile) :
    file.link.entityList = file.entities.map (·.link file.table.position?) := by
  rw [LinkedModel.entityList, link, Array.toList_map, entities]

/-- Linking keeps the numbers. -/
lemma link_ids (file : ExchangeFile) : file.link.entityList.map (·.id) = file.entities.map (·.id) := by
  rw [entityList_link, List.map_map]
  rfl

namespace Fresh

variable (hfresh : file.Fresh additions)
include hfresh

/-- Fresh additions keep the table sound. -/
lemma sound_extend : (file.extend additions).table.Sound :=
  hfresh.sound.pushAll additions hfresh.distinct

/-- The entities of the file are linked as before, and the additions follow. -/
lemma entityList_extend : (file.extend additions).link.entityList = file.link.entityList ++
    additions.map (·.link (file.extend additions).table.position?) := by
  rw [entityList_link, entities_extend, List.map_append, entityList_link]
  congr 1
  apply List.map_congr_left
  intro e he
  rw [Entity.link, Entity.link, Value.linkAll_congr]
  intro id hid
  apply EntityTable.position?_foldl_push
  rintro a ha rfl
  exact hfresh.unreferenced e he a ha hid

/-- The linked file is part of the larger one. -/
lemma partOf : file.link.PartOf (file.extend additions).link where
  kept h e he := by
    rw [LinkedModel.get?, ← Array.getElem?_toList] at he ⊢
    have hlist := hfresh.entityList_extend
    rw [entityList, entityList] at hlist
    rw [hlist, List.getElem?_append_left (List.getElem?_eq_some_iff.mp he).1]
    exact he
  closed h e he c hc := by
    rw [get?_link] at he
    obtain ⟨raw, -, rfl⟩ := Option.map_eq_some_iff.mp he
    rw [LinkedEntity.links, Entity.link, Value.linksOf_linkAll] at hc
    obtain ⟨id, -, hid⟩ := List.mem_filterMap.mp hc
    rw [hfresh.sound id c] at hid
    obtain ⟨target, htarget, -⟩ := Option.map_eq_some_iff.mp hid
    refine ⟨target.link file.table.position?, ?_⟩
    rw [get?_link, htarget]
    rfl

end Fresh

/-! ## Consumed entities -/

/-- An entity is consumed if some entity that is no relationship links to it. -/
lemma isConsumed_link_iff (he : file.link.get? h = some e) : file.link.isConsumed h = true ↔
    ∃ user ∈ file.link.entityList, user.kind.isRelationship = false ∧ h ∈ user.links := by
  have hlt : h < file.link.entities.size := lt_size_of_get? he
  have hconsumed : file.link.isConsumed h = (consumedBy file.link.entities).getD h false := rfl
  have hmem : h ∈ (file.link.entities.toList.filter fun e => !e.kind.isRelationship).flatMap (·.links) ↔
      ∃ user ∈ file.link.entityList, user.kind.isRelationship = false ∧ h ∈ user.links := by
    simp only [List.mem_flatMap, List.mem_filter, Bool.not_eq_true', and_assoc]
    rfl
  rw [hconsumed, consumedBy, Walk.getD_foldl_setIfInBounds, Array.size_replicate, ← hmem]
  split
  · rename_i hin
    exact iff_of_true rfl hin.1
  · rename_i hout
    have hfalse : (Array.replicate file.link.entities.size false).getD h false = false := by
      simp [hlt]
    rw [hfalse]
    exact iff_of_false Bool.false_ne_true fun hin => hout ⟨hin, hlt⟩

/-- An addition links to an entity of the file if it refers to its number. -/
lemma Fresh.mem_links_iff (hfresh : file.Fresh additions) (he : file.link.get? h = some e) (a : Entity) :
    h ∈ (a.link (file.extend additions).table.position?).links ↔ e.id ∈ Value.refsOf a.params := by
  have hplace : ∀ id, (file.extend additions).table.position? id = some h ↔ e.id = id := by
    intro id
    have hget := hfresh.partOf.kept h e he
    rw [get?_link] at hget
    obtain ⟨raw, hraw, rfl⟩ := Option.map_eq_some_iff.mp hget
    rw [hfresh.sound_extend id h, hraw, Option.map_some, Option.some.injEq]
    rfl
  rw [LinkedEntity.links, Entity.link, Value.linksOf_linkAll, List.mem_filterMap]
  simp only [hplace]
  constructor
  · rintro ⟨id, hid, rfl⟩
    exact hid
  · intro hid
    exact ⟨e.id, hid, rfl⟩

/-- In the larger file an entity is consumed if it was before, or if an addition that is no relationship
refers to it. -/
theorem Fresh.isConsumed_iff (hfresh : file.Fresh additions) (he : file.link.get? h = some e) :
    (file.extend additions).link.isConsumed h = true ↔ file.link.isConsumed h = true ∨
      ∃ a ∈ additions, a.kind.isRelationship = false ∧ e.id ∈ Value.refsOf a.params := by
  rw [isConsumed_link_iff (hfresh.partOf.kept h e he), isConsumed_link_iff he, hfresh.entityList_extend]
  constructor
  · rintro ⟨user, huser, hkind, hlink⟩
    rcases List.mem_append.mp huser with huser | huser
    · exact .inl ⟨user, huser, hkind, hlink⟩
    · obtain ⟨a, ha, rfl⟩ := List.mem_map.mp huser
      exact .inr ⟨a, ha, hkind, (hfresh.mem_links_iff he a).mp hlink⟩
  · rintro (⟨user, huser, hkind, hlink⟩ | ⟨a, ha, hkind, hid⟩)
    · exact ⟨user, List.mem_append_left _ huser, hkind, hlink⟩
    · exact ⟨_, List.mem_append_right _ (List.mem_map_of_mem ha), hkind, (hfresh.mem_links_iff he a).mpr hid⟩

end ExchangeFile

end BuildingModel
