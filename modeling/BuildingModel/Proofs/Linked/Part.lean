import BuildingModel.Proofs.Linked.SafeToWalk
import BuildingModel.Proofs.Walk.Growth

/-!
# Parts of a model

A model is part of a larger one if the larger one has the same entities at the same places, and no link of
the part leads out of it (`LinkedModel.PartOf`). Whoever follows links from an entity of the part stays in
the part, and finds the same entities in both models. So does the walk over the references.
-/

namespace BuildingModel

namespace LinkedModel

/-- Some places hold entities of the model. -/
def Holds (m : LinkedModel) (places : List Handle) : Prop := ∀ h ∈ places, ∃ e, m.get? h = some e

/-- The entities of `m` stand at the same places in `m'`, and link to each other alone. -/
structure PartOf (m m' : LinkedModel) : Prop where
  kept : ∀ h e, m.get? h = some e → m'.get? h = some e
  closed : ∀ h e, m.get? h = some e → m.Holds e.links

variable {m m' : LinkedModel} {e t : LinkedEntity} {h : Handle} {i : Nat} {items : List LinkedValue}

/-- An entity is listed with its place. -/
lemma mem_placed_iff : (e, h) ∈ m.placed ↔ m.get? h = some e := by
  rw [placed, List.mem_zipIdx_iff_getElem?, get?, ← Array.getElem?_toList]
  rfl

lemma mem_entityList_of_get? (he : m.get? h = some e) : e ∈ m.entityList :=
  Array.mem_toList_iff.mpr (Array.mem_of_getElem? he)

/-- The links of a parameter are links of the entity. -/
lemma mem_links_of_param? {v : LinkedValue} (hv : e.param? i = some v) (hh : h ∈ v.links) : h ∈ e.links := by
  rw [LinkedEntity.links, LinkedValue.linksOf_eq]
  exact List.mem_flatMap.mpr ⟨v, List.mem_of_getElem? hv, hh⟩

/-- A link is one of its own links. -/
lemma mem_links_of_link? {v : LinkedValue} (hv : v.link? = some h) : h ∈ v.links := by
  cases v with
  | link target =>
    cases hv
    exact List.mem_singleton_self h
  | _ => cases hv

/-- The items of a list link to what the entity links to. -/
lemma Holds.list? (he : m.Holds e.links) : m.Holds (LinkedValue.linksOf ((e.list? i).getD [])) := by
  cases hitems : e.list? i with
  | none => exact fun h hh => by cases hh
  | some items =>
    obtain ⟨v, hv, hlist⟩ := Option.bind_eq_some_iff.mp hitems
    cases v with
    | list items' =>
      cases hlist
      exact fun h hh => he h (mem_links_of_param? hv hh)
    | _ => cases hlist

section Part

variable (hpart : m.PartOf m')
include hpart

/-- The places of the part hold the same entities. -/
lemma PartOf.get?_eq (hh : ∃ e, m.get? h = some e) : m'.get? h = m.get? h := by
  obtain ⟨e, he⟩ := hh
  rw [he]
  exact hpart.kept h e he

/-- What is followed inside the part links to the part. -/
lemma PartOf.holds_of_follow? (ht : m.follow? e i = some t) : m.Holds t.links := by
  obtain ⟨h, -, hget⟩ := Option.bind_eq_some_iff.mp ht
  exact hpart.closed h t hget

/-- So do all entities of a list. -/
lemma PartOf.holds_of_followAll (ht : t ∈ m.followAll items) : m.Holds t.links := by
  obtain ⟨v, -, hv⟩ := List.mem_filterMap.mp ht
  obtain ⟨h, -, hget⟩ := Option.bind_eq_some_iff.mp hv
  exact hpart.closed h t hget

/-- A list inside the part leads to the same entities. -/
lemma PartOf.followAll_eq (hitems : m.Holds (LinkedValue.linksOf items)) :
    m'.followAll items = m.followAll items := by
  apply List.filterMap_congr
  intro v hv
  cases hlink : v.link? with
  | none => rfl
  | some h =>
    apply hpart.get?_eq
    apply hitems h
    rw [LinkedValue.linksOf_eq]
    exact List.mem_flatMap.mpr ⟨v, hv, mem_links_of_link? hlink⟩

variable (he : m.Holds e.links)
include he

/-- So does an attribute. -/
lemma PartOf.follow?_eq (i : Nat) : m'.follow? e i = m.follow? e i := by
  rw [follow?, follow?]
  cases hlink : e.link? i with
  | none => rfl
  | some h =>
    obtain ⟨v, hv, hvlink⟩ := Option.bind_eq_some_iff.mp hlink
    exact hpart.get?_eq (he h (mem_links_of_param? hv (mem_links_of_link? hvlink)))

end Part

/-- The links of the part stay inside it. -/
lemma PartOf.lt_size (hpart : m.PartOf m') (he : m.get? h = some e) (hc : i ∈ e.links) :
    i < m.entities.size := by
  obtain ⟨t, ht⟩ := hpart.closed h e he i hc
  exact lt_size_of_get? ht

/-- Every place below the size holds an entity. -/
lemma get?_of_lt (hlt : h < m.entities.size) : m.get? h = some m.entities[h] := Array.getElem?_eq_getElem hlt

/-- The references of the part are those of the larger model. -/
lemma PartOf.grows (hpart : m.PartOf m') : m.references.Grows m.entities.size m'.references where
  out i hi := by
    have he := get?_of_lt hi
    rw [out_references he, out_references (hpart.kept i _ he)]
  shapeOut i hi := by
    have he := get?_of_lt hi
    rw [shapeOut_references he, shapeOut_references (hpart.kept i _ he)]
    -- Which of the links count depends on the kinds of their targets, and these lie in the part.
    apply List.filter_congr
    intro b hb
    rw [hpart.get?_eq (hpart.closed i _ he b (LinkedEntity.mem_links_of_mem_shapeLinks hb))]
  closed i hi c hc := by
    have he := get?_of_lt hi
    rw [out_references he] at hc
    exact hpart.lt_size he hc
  closedShape i hi c hc := by
    have he := get?_of_lt hi
    have hout := m.shapeOut_subset i hc
    rw [out_references he] at hout
    exact hpart.lt_size he hout

end LinkedModel

namespace ExchangeFile

open LinkedModel

/-- The entities of a part keep their statuses. -/
theorem statusOf_of_partOf {file file' : ExchangeFile} (hpart : file.link.PartOf file'.link) {h : Handle}
    {e : LinkedEntity} (he : file.link.get? h = some e) :
    file'.link.statusOf h = file.link.statusOf h := by
  have hown : ∀ i < file.link.entities.size,
      (file'.link.entities.map (·.ownStatus)).getD i .ok =
        (file.link.entities.map (·.ownStatus)).getD i .ok := by
    intro i hi
    have hi := get?_of_lt hi
    have hi' := hpart.kept i _ hi
    rw [LinkedModel.get?] at hi hi'
    rw [Array.getD_eq_getD_getElem?, Array.getD_eq_getD_getElem?, Array.getElem?_map, Array.getElem?_map,
      hi, hi']
  have hle : file.link.entities.size ≤ file'.link.entities.size := by
    by_contra hlt
    have hlast : file'.link.entities.size < file.link.entities.size := Nat.lt_of_not_le hlt
    have hget := hpart.kept _ _ (get?_of_lt hlast)
    exact absurd (lt_size_of_get? hget) (Nat.lt_irrefl _)
  rw [link_statusOf, link_statusOf]
  apply Walk.runAll_statusAt_of_grows hpart.grows (Array.size_map ..) (size_all_references _)
    file'.size_ownStatus _ hown (lt_size_of_get? he)
  rw [Array.size_map]
  exact hle

end ExchangeFile

end BuildingModel
