import Mathlib
import BuildingModel.Exchange.File

/-!
# Tables of entities

A table is sound if its index says where each number stands. Then no two entities have the same number,
and looking a number up is the same as searching the list of entities for it.
-/

namespace BuildingModel.Exchange.EntityTable

variable {table : EntityTable} {id : EntityId} {e : Entity}

/-- The index has every number at the place of its entity, and no other number. -/
def Sound (table : EntityTable) : Prop :=
  ∀ id i, table.position? id = some i ↔ (table.entities[i]?).map (·.id) = some id

lemma sound_empty : Sound {} := by
  intro id i
  simp [position?]

/-- A number is in the table exactly if it has a place. -/
lemma contains_eq (table : EntityTable) (id : EntityId) :
    table.contains id = (table.position? id).isSome := by
  rw [contains, position?, Std.HashMap.isSome_getElem?_eq_contains]

/-- A new entity adds its number. -/
lemma contains_push (table : EntityTable) (e : Entity) (id : EntityId) :
    (table.push e).contains id = (e.id == id || table.contains id) := by
  rw [contains, push, Std.HashMap.contains_insert]
  rfl

/-- New entities add their numbers. -/
lemma contains_foldl_push (es : List Entity) (table : EntityTable) (id : EntityId) :
    (es.foldl push table).contains id = (es.any (·.id == id) || table.contains id) := by
  induction es generalizing table with
  | nil => rfl
  | cons e es ih =>
    rw [List.foldl_cons, ih, contains_push, List.any_cons, ← Bool.or_assoc, Bool.or_comm (es.any _)]

/-- New entities come last, in order. -/
lemma entities_foldl_push (es : List Entity) (table : EntityTable) :
    (es.foldl push table).entities.toList = table.entities.toList ++ es := by
  induction es generalizing table with
  | nil => simp
  | cons e es ih =>
    rw [List.foldl_cons, ih, push, Array.toList_push, List.append_assoc]
    rfl

/-- A new entity is found behind all others. -/
lemma position?_push (table : EntityTable) (e : Entity) (id : EntityId) :
    (table.push e).position? id = if e.id = id then some table.entities.size else table.position? id := by
  rw [position?, push, Std.HashMap.getElem?_insert, position?]
  simp only [beq_iff_eq]

/-- Adding entities with other numbers does not move a number. -/
lemma position?_foldl_push {es : List Entity} (hid : ∀ e ∈ es, e.id ≠ id) (table : EntityTable) :
    (es.foldl push table).position? id = table.position? id := by
  induction es generalizing table with
  | nil => rfl
  | cons e es ih =>
    rw [List.foldl_cons, ih fun f hf => hid f (List.mem_cons_of_mem _ hf), position?_push,
      if_neg (hid e List.mem_cons_self)]

/-- A new number is written at the end of the index and of the list. -/
lemma Sound.push (hs : table.Sound) (hnew : table.contains e.id = false) : (table.push e).Sound := by
  have hnone : table.position? e.id = none := by
    rwa [contains_eq, Option.isSome_eq_false_iff, Option.isNone_iff_eq_none] at hnew
  intro id i
  have hsize : table.entities[table.entities.size]? = none := Array.getElem?_size
  rw [position?_push, EntityTable.push, Array.getElem?_push]
  by_cases hid : e.id = id
  · subst hid
    by_cases hi : i = table.entities.size
    · simp [hi]
    · rw [if_pos rfl, if_neg hi, ← hs e.id i, hnone]
      simp [Ne.symm hi]
  · by_cases hi : i = table.entities.size
    · subst hi
      rw [if_neg hid, if_pos rfl, hs id, hsize]
      simp [hid]
    · rw [if_neg hid, if_neg hi, hs id]

/-- In a sound table no number occurs twice. -/
lemma Sound.nodup (hs : table.Sound) : (table.entities.toList.map (·.id)).Nodup := by
  rw [List.nodup_iff_getElem?_ne_getElem?]
  intro i j hij hj hsame
  rw [List.length_map, Array.length_toList] at hj
  have hplace : ∀ k : Nat, (table.entities.toList.map (·.id))[k]? = (table.entities[k]?).map (·.id) := by
    intro k
    rw [List.getElem?_map, Array.getElem?_toList]
  have hat : (table.entities[j]?).map (·.id) = some table.entities[j].id := by
    rw [Array.getElem?_eq_getElem hj, Option.map_some]
  rw [hplace, hplace, hat, ← hs] at hsame
  rw [← hs, hsame] at hat
  exact absurd (Option.some.inj hat) (Nat.ne_of_lt hij)

/-- In a sound table a number leads to the entity that has it. -/
lemma Sound.get?_eq_some_iff (hs : table.Sound) :
    table.get? id = some e ↔ e ∈ table.entities.toList ∧ e.id = id := by
  simp only [get?, Option.bind_eq_bind, Option.bind_eq_some_iff, hs id, Option.map_eq_some_iff]
  constructor
  · rintro ⟨i, ⟨f, hf, rfl⟩, he⟩
    cases hf.symm.trans he
    exact ⟨Array.mem_toList_iff.mpr (Array.mem_of_getElem? he), rfl⟩
  · rintro ⟨hmem, rfl⟩
    obtain ⟨i, hi⟩ := Array.getElem?_of_mem (Array.mem_toList_iff.mp hmem)
    exact ⟨i, ⟨e, hi, rfl⟩, hi⟩

/-- In a sound table the numbers are those of the entities. -/
lemma Sound.contains_iff (hs : table.Sound) :
    table.contains id = true ↔ id ∈ table.entities.toList.map (·.id) := by
  rw [contains_eq, Option.isSome_iff_exists, List.mem_map]
  simp only [hs id, Option.map_eq_some_iff]
  constructor
  · rintro ⟨i, e, he, hid⟩
    exact ⟨e, Array.mem_toList_iff.mpr (Array.mem_of_getElem? he), hid⟩
  · rintro ⟨e, hmem, hid⟩
    obtain ⟨i, hi⟩ := Array.getElem?_of_mem (Array.mem_toList_iff.mp hmem)
    exact ⟨i, e, hi, hid⟩

/-- Any entities with numbers of their own can be added. -/
lemma Sound.pushAll (hs : table.Sound) (es : List Entity)
    (hids : (table.entities.toList.map (·.id) ++ es.map (·.id)).Nodup) : (es.foldl EntityTable.push table).Sound := by
  induction es generalizing table with
  | nil => exact hs
  | cons e es ih =>
    have hnew : table.contains e.id = false := by
      rw [Bool.eq_false_iff, ne_eq, hs.contains_iff]
      intro hmem
      exact List.disjoint_of_nodup_append hids hmem List.mem_cons_self
    apply ih (hs.push hnew)
    rw [EntityTable.push, Array.toList_push, List.map_append, List.append_assoc]
    exact hids

/-- Looking a number up finds the first entity that has it. -/
lemma Sound.get?_eq_find? (hs : table.Sound) (id : EntityId) :
    table.get? id = table.entities.toList.find? (·.id == id) := by
  cases hfind : table.entities.toList.find? (·.id == id) with
  | some e =>
    rw [hs.get?_eq_some_iff]
    exact ⟨List.mem_of_find?_eq_some hfind, by simpa using List.find?_some hfind⟩
  | none =>
    rw [Option.eq_none_iff_forall_ne_some]
    intro e he
    obtain ⟨hmem, hid⟩ := hs.get?_eq_some_iff.mp he
    have hne := List.find?_eq_none.mp hfind e hmem
    exact hne (by simpa using hid)

end BuildingModel.Exchange.EntityTable
