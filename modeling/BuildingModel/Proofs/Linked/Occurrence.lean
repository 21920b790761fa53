import Mathlib
import BuildingModel.Linked.Model

/-!
# Occurrence in linked values

`Within` says that a value stands somewhere inside another one, at any depth. The functions that collect
the links and the dangling references of a value collect exactly those that stand inside it
(`mem_links_iff`, `mem_danglings_iff`). An entity holds a value in its shape if the value stands inside
one of the parameters that feed the shape (`LinkedEntity.InShape`).
-/

namespace BuildingModel

namespace LinkedValue

/-- The values that a value is directly made of. -/
def parts : LinkedValue → List LinkedValue
  | .list items => items
  | .typed _ args => args
  | _ => []

/-- `Within x v` says that `x` stands inside `v`, at any depth. -/
inductive Within (x : LinkedValue) : LinkedValue → Prop where
  | here : Within x x
  | part {u v} : u ∈ v.parts → Within x u → Within x v

/-- The parts of a value are smaller. -/
lemma sizeOf_lt_of_mem_parts {u v : LinkedValue} (hu : u ∈ v.parts) : sizeOf u < sizeOf v := by
  cases v with
  | list items =>
    have : sizeOf u < sizeOf items := List.sizeOf_lt_of_mem hu
    simp only [list.sizeOf_spec]
    omega
  | typed name args =>
    have : sizeOf u < sizeOf args := List.sizeOf_lt_of_mem hu
    simp only [typed.sizeOf_spec]
    omega
  | _ => cases hu

/-- What passes from the parts to the whole holds of all values. -/
theorem parts_induction {P : LinkedValue → Prop} (step : ∀ v, (∀ u ∈ v.parts, P u) → P v)
    (v : LinkedValue) : P v :=
  step v fun u _ => parts_induction step u
termination_by sizeOf v
decreasing_by exact sizeOf_lt_of_mem_parts ‹_›

/-- What is collected from a value and, in the same way, from its parts, comes from some value that
stands inside it. -/
lemma mem_collect_iff {β : Type} {own collect : LinkedValue → List β}
    (hcollect : ∀ v, collect v = own v ++ v.parts.flatMap collect) {x : β} {v : LinkedValue} :
    x ∈ collect v ↔ ∃ u, Within u v ∧ x ∈ own u := by
  constructor
  · intro hx
    induction v using parts_induction with
    | step v ih =>
      rw [hcollect, List.mem_append] at hx
      obtain hx | hx := hx
      · exact ⟨v, .here, hx⟩
      · obtain ⟨u, hu, hx⟩ := List.mem_flatMap.mp hx
        obtain ⟨t, ht, hx⟩ := ih u hu hx
        exact ⟨t, .part hu ht, hx⟩
  · rintro ⟨u, hu, hx⟩
    induction hu with
    | here =>
      rw [hcollect]
      exact List.mem_append_left _ hx
    | part hmem _ ih =>
      rw [hcollect]
      exact List.mem_append_right _ (List.mem_flatMap.mpr ⟨_, hmem, ih⟩)

/-- The links of values are those of each of them. -/
lemma linksOf_eq (vs : List LinkedValue) : linksOf vs = vs.flatMap links := by
  induction vs with
  | nil => rfl
  | cons v vs ih => rw [linksOf, ih, List.flatMap_cons]

/-- So are their dangling references. -/
lemma danglingsOf_eq (vs : List LinkedValue) : danglingsOf vs = vs.flatMap danglings := by
  induction vs with
  | nil => rfl
  | cons v vs ih => rw [danglingsOf, ih, List.flatMap_cons]

/-- The missing entity that the value itself refers to. -/
def dangling? : LinkedValue → Option EntityId
  | .dangling id => some id
  | _ => none

/-- The links of a value are the links that stand inside it. -/
theorem mem_links_iff {h : Handle} {v : LinkedValue} : h ∈ v.links ↔ Within (.link h) v := by
  have hcollect : ∀ v : LinkedValue, v.links = v.link?.toList ++ v.parts.flatMap links := by
    intro v
    cases v <;> simp [links, link?, parts, linksOf_eq]
  rw [mem_collect_iff hcollect]
  constructor
  · rintro ⟨u, hu, hh⟩
    cases u with
    | link target => exact List.mem_singleton.mp hh ▸ hu
    | _ => cases hh
  · exact fun hw => ⟨_, hw, List.mem_singleton_self h⟩

/-- A dangling reference is found exactly if it stands inside the value. -/
theorem mem_danglings_iff {id : EntityId} {v : LinkedValue} :
    id ∈ v.danglings ↔ Within (.dangling id) v := by
  have hcollect : ∀ v : LinkedValue, v.danglings = v.dangling?.toList ++ v.parts.flatMap danglings := by
    intro v
    cases v <;> simp [danglings, dangling?, parts, danglingsOf_eq]
  rw [mem_collect_iff hcollect]
  constructor
  · rintro ⟨u, hu, hid⟩
    cases u with
    | dangling target => exact List.mem_singleton.mp hid ▸ hu
    | _ => cases hid
  · exact fun hw => ⟨_, hw, List.mem_singleton_self id⟩

end LinkedValue

namespace LinkedEntity

/-- `e.InShape x` says that `x` stands inside a parameter that feeds the shape of `e`: the placement and
the representation of a product or spatial element, any parameter of other entities. -/
def InShape (e : LinkedEntity) (x : LinkedValue) : Prop :=
  ∃ i v, e.param? i = some v ∧ (e.kind.isProduct ∨ e.kind.isSpatial → i = 5 ∨ i = 6) ∧ x.Within v

/-- Which parameters feed the shape of an entity. -/
lemma mem_shapeParams_iff {e : LinkedEntity} {v : LinkedValue} :
    v ∈ e.shapeParams ↔
      ∃ i, e.param? i = some v ∧ (e.kind.isProduct ∨ e.kind.isSpatial → i = 5 ∨ i = 6) := by
  have hshape : ∀ i, isShapeParam e.kind i = true ↔
      (e.kind.isProduct ∨ e.kind.isSpatial → i = 5 ∨ i = 6) := by
    intro i
    unfold isShapeParam
    by_cases hk : e.kind.isProduct = true ∨ e.kind.isSpatial = true
    · simp [hk]
    · simp [hk]
  simp only [shapeParams, List.mem_map, List.mem_filter, Prod.exists, List.mem_zipIdx_iff_getElem?,
    param?, hshape]
  constructor
  · rintro ⟨u, i, ⟨hu, hi⟩, rfl⟩
    exact ⟨i, hu, hi⟩
  · rintro ⟨i, hv, hi⟩
    exact ⟨v, i, ⟨hv, hi⟩, rfl⟩

/-- The links of a shape are those that stand inside it. -/
lemma mem_shapeLinks_iff {e : LinkedEntity} {h : Handle} :
    h ∈ LinkedValue.linksOf e.shapeParams ↔ e.InShape (.link h) := by
  simp only [LinkedValue.linksOf_eq, List.mem_flatMap, LinkedValue.mem_links_iff,
    mem_shapeParams_iff, InShape]
  constructor
  · rintro ⟨v, ⟨i, hv, hi⟩, hw⟩
    exact ⟨i, v, hv, hi, hw⟩
  · rintro ⟨i, v, hv, hi, hw⟩
    exact ⟨v, ⟨i, hv, hi⟩, hw⟩

/-- A shape dangles if a dangling reference stands inside it. -/
lemma hasDanglingShape_iff {e : LinkedEntity} :
    e.hasDanglingShape = true ↔ ∃ id, e.InShape (.dangling id) := by
  rw [hasDanglingShape, Bool.not_eq_true', List.isEmpty_eq_false_iff_exists_mem]
  simp only [LinkedValue.danglingsOf_eq, List.mem_flatMap, LinkedValue.mem_danglings_iff,
    mem_shapeParams_iff, InShape]
  constructor
  · rintro ⟨id, v, ⟨i, hv, hi⟩, hw⟩
    exact ⟨id, i, v, hv, hi, hw⟩
  · rintro ⟨id, i, v, hv, hi, hw⟩
    exact ⟨id, v, ⟨i, hv, hi⟩, hw⟩

/-- The links of the shape are links of the entity. -/
lemma mem_links_of_mem_shapeLinks {e : LinkedEntity} {h : Handle}
    (hh : h ∈ LinkedValue.linksOf e.shapeParams) : h ∈ e.links := by
  rw [LinkedValue.linksOf_eq] at hh
  obtain ⟨v, hv, hh⟩ := List.mem_flatMap.mp hh
  obtain ⟨i, hi, -⟩ := mem_shapeParams_iff.mp hv
  rw [links, LinkedValue.linksOf_eq]
  exact List.mem_flatMap.mpr ⟨v, List.mem_of_getElem? hi, hh⟩

end LinkedEntity

end BuildingModel
