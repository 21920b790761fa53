import BuildingModel.Proofs.Linked.Problems

/-!
# Linking loses nothing

A link can be turned back into a reference to the number of the entity that it leads to. Doing so everywhere
gives back the parameters as they were written (`Value.unlink_link`), since the place at which a number is
found holds the entity with that number. `ExchangeFile.Lossless` says what else a linked model tells about its
file: what is missing, where each number stands, who is referred to, and what has been reported.
-/

namespace BuildingModel

open Exchange

mutual
/-- The value as it is written, where `idOf` gives the number of the entity at a place. -/
def LinkedValue.unlink (idOf : Handle → EntityId) : LinkedValue → Value
  | .integer n => .integer n
  | .real x => .real x
  | .text s => .text s
  | .enum name => .enum name
  | .link target => .ref (idOf target)
  | .dangling id => .ref id
  | .list items => .list (unlinkAll idOf items)
  | .typed name args => .typed name (unlinkAll idOf args)
  | .omitted => .omitted
  | .derived => .derived

/-- Several values as they are written. -/
def LinkedValue.unlinkAll (idOf : Handle → EntityId) : List LinkedValue → List Value
  | [] => []
  | v :: vs => v.unlink idOf :: unlinkAll idOf vs
end

/-- The entity as it is written. -/
def LinkedEntity.unlink (idOf : Handle → EntityId) (e : LinkedEntity) : Entity :=
  ⟨e.id, e.kind, LinkedValue.unlinkAll idOf e.params⟩

/-- The number of the entity at a place. -/
def LinkedModel.idAt (m : LinkedModel) (h : Handle) : EntityId := ((m.get? h).map (·.id)).getD 0

mutual
/-- A value that has been linked can be written again, if each number is found at a place that has it. -/
theorem Value.unlink_link {find : EntityId → Option Handle} {idOf : Handle → EntityId}
    (hfind : ∀ id h, find id = some h → idOf h = id) : (v : Value) → (v.link find).unlink idOf = v
  | .ref id => by
    rw [link]
    cases hid : find id with
    | none => rfl
    | some target => exact congrArg Value.ref (hfind id target hid)
  | .list items => by
    rw [link, LinkedValue.unlink, unlinkAll_linkAll hfind items]
  | .typed name args => by
    rw [link, LinkedValue.unlink, unlinkAll_linkAll hfind args]
  | .integer _ | .real _ | .text _ | .enum _ | .omitted | .derived => rfl

/-- Linking values and writing them again gives them back. -/
theorem Value.unlinkAll_linkAll {find : EntityId → Option Handle} {idOf : Handle → EntityId}
    (hfind : ∀ id h, find id = some h → idOf h = id) :
    (vs : List Value) → LinkedValue.unlinkAll idOf (linkAll find vs) = vs
  | [] => rfl
  | v :: vs => by
    rw [linkAll, LinkedValue.unlinkAll, unlink_link hfind v, unlinkAll_linkAll hfind vs]
end

/-- The references of values are those of each of them. -/
lemma Value.refsOf_eq (vs : List Value) : refsOf vs = vs.flatMap refs := by
  induction vs with
  | nil => rfl
  | cons v vs ih => rw [refsOf, ih, List.flatMap_cons]

namespace ExchangeFile

open LinkedModel

variable {file : ExchangeFile}

/-- What a linked model tells about the file that it comes from. -/
structure Lossless (file : ExchangeFile) (m : LinkedModel) : Prop where
  /-- No link leads out of the model. -/
  valid : ∀ e ∈ m.entityList, ∀ v ∈ e.params, ∀ h, LinkedValue.Within (.link h) v → h < m.size
  /-- The entities can be written again as they were. -/
  restored : m.entityList.map (·.unlink m.idAt) = file.entities
  /-- What dangles is what no entity has. -/
  dangling : ∀ e ∈ m.entityList, ∀ v ∈ e.params, ∀ id, LinkedValue.Within (.dangling id) v ↔
    id ∈ (v.unlink m.idAt).refs ∧ ∀ t ∈ file.entities, t.id ≠ id
  handle : ∀ id h, m.handle? id = some h ↔ ∃ e, m.get? h = some e ∧ e.id = id
  byId : ∀ id e, m.byId? id = some e ↔ e ∈ m.entityList ∧ e.id = id
  consumed : ∀ h e, m.get? h = some e → (m.isConsumed h = true ↔
    ∃ user ∈ file.entities, user.kind.isRelationship = false ∧ ∃ v ∈ user.params, e.id ∈ v.refs)
  /-- The problems that linking has added: those of missing entities, then those of cycles. They are counted in
  64 bits. -/
  problems : ∃ missing cycles, m.log = file.log.pushAll (missing ++ cycles) ∧
    List.Forall₂ file.TellsMissing (file.entities.filter file.dangles) missing ∧
    ∀ p ∈ cycles, p.kind = .cyclicReference
  counted : m.log.count .unresolvedReference =
    file.log.count .unresolvedReference + .ofNat (file.entities.countP file.dangles)

/-- Each parameter of a linked entity is a parameter that was written. -/
lemma exists_link_of_mem_params {e : LinkedEntity} (he : e ∈ file.link.entityList) {v : LinkedValue}
    (hv : v ∈ e.params) : ∃ raw : Value, v = raw.link file.table.position? := by
  rw [entityList_link] at he
  obtain ⟨e, -, rfl⟩ := List.mem_map.mp he
  rw [Entity.link, Value.linkAll_eq] at hv
  obtain ⟨raw, -, rfl⟩ := List.mem_map.mp hv
  exact ⟨raw, rfl⟩

section Sound

variable (hsound : file.table.Sound)
include hsound

/-- A number is found at the place of its entity. -/
lemma handle?_link_iff (id : EntityId) (h : Handle) :
    file.link.handle? id = some h ↔ ∃ e, file.link.get? h = some e ∧ e.id = id := by
  have hplace : file.link.handle? id = some h ↔ (file.table.entities[h]?).map (·.id) = some id := hsound id h
  rw [hplace, get?_link]
  cases file.table.entities[h]? with
  | none => simp
  | some e => simp [Entity.link]

/-- A place has the number that leads to it. -/
lemma idAt_link {id : EntityId} {h : Handle} (hid : file.table.position? id = some h) :
    file.link.idAt h = id := by
  obtain ⟨e, he, rfl⟩ := (handle?_link_iff hsound id h).mp hid
  rw [idAt, he]
  rfl

/-- A number is not in the file exactly if no entity has it. -/
lemma contains_eq_false_iff {id : EntityId} :
    file.contains id = false ↔ ∀ t ∈ file.entities, t.id ≠ id := by
  rw [← Bool.not_eq_true, contains, hsound.contains_iff, List.mem_map]
  simp only [not_exists, not_and]
  rfl

/-- An entity is found by its number. -/
lemma byId?_link_iff (id : EntityId) (e : LinkedEntity) :
    file.link.byId? id = some e ↔ e ∈ file.link.entityList ∧ e.id = id := by
  rw [byId?, Option.bind_eq_some_iff]
  simp only [handle?_link_iff hsound]
  constructor
  · rintro ⟨h, ⟨t, ht, hid⟩, he⟩
    cases ht.symm.trans he
    exact ⟨mem_entityList_of_get? he, hid⟩
  · rintro ⟨hmem, hid⟩
    obtain ⟨h, hh⟩ := Array.getElem?_of_mem (Array.mem_toList_iff.mp hmem)
    exact ⟨h, ⟨e, hh, hid⟩, hh⟩

/-- A linked entity links to an entity if it refers to its number. -/
lemma mem_links_link_iff {h : Handle} {e : LinkedEntity} (he : file.link.get? h = some e) (user : Entity) :
    h ∈ (user.link file.table.position?).links ↔ e.id ∈ Value.refsOf user.params := by
  have hfresh : file.Fresh [] := by
    refine ⟨hsound, ?_, fun e _ a ha => absurd ha List.not_mem_nil⟩
    rw [List.map_nil, List.append_nil]
    exact hsound.nodup
  exact hfresh.mem_links_iff he user

/-- An entity is consumed exactly if some other one than a relationship refers to it. -/
lemma isConsumed_link_iff_refs {h : Handle} {e : LinkedEntity} (he : file.link.get? h = some e) :
    file.link.isConsumed h = true ↔
      ∃ user ∈ file.entities, user.kind.isRelationship = false ∧ ∃ v ∈ user.params, e.id ∈ v.refs := by
  rw [isConsumed_link_iff he, entityList_link]
  simp only [List.mem_map, exists_exists_and_eq_and, mem_links_link_iff hsound he, Value.refsOf_eq,
    List.mem_flatMap]
  rfl

/-- Links lead to places of the file. -/
lemma lt_size_of_within {v : Value} {h : Handle}
    (hh : LinkedValue.Within (.link h) (v.link file.table.position?)) : h < file.link.size := by
  rw [← LinkedValue.mem_links_iff, Value.links_link, List.mem_filterMap] at hh
  obtain ⟨id, -, hid⟩ := hh
  obtain ⟨e, he, -⟩ := (handle?_link_iff hsound id h).mp hid
  exact lt_size_of_get? he

/-- A reference dangles exactly if no entity has its number. -/
lemma within_dangling_iff (v : Value) (id : EntityId) :
    LinkedValue.Within (.dangling id) (v.link file.table.position?) ↔
      id ∈ v.refs ∧ ∀ t ∈ file.entities, t.id ≠ id := by
  rw [← LinkedValue.mem_danglings_iff, Value.danglings_link, List.mem_filter, decide_eq_true_eq,
    position?_eq_none_iff, contains_eq_false_iff hsound]

end Sound

/-- Linking a file loses nothing. The table of every file that is read is sound (`ExchangeFile.sound_parse`). -/
theorem link_lossless (file : ExchangeFile) (hsound : file.table.Sound) : file.Lossless file.link where
  valid e he v hv h hh := by
    obtain ⟨raw, rfl⟩ := exists_link_of_mem_params he hv
    exact lt_size_of_within hsound hh
  restored := by
    rw [entityList_link, List.map_map]
    apply List.map_id''
    intro e
    rw [Function.comp_apply, LinkedEntity.unlink, Entity.link,
      Value.unlinkAll_linkAll fun _ _ => idAt_link hsound]
  dangling e he v hv id := by
    obtain ⟨raw, rfl⟩ := exists_link_of_mem_params he hv
    rw [Value.unlink_link fun _ _ => idAt_link hsound]
    exact within_dangling_iff hsound raw id
  handle := handle?_link_iff hsound
  byId := byId?_link_iff hsound
  consumed h e he := isConsumed_link_iff_refs hsound he
  problems := by
    refine ⟨file.danglingProblems, file.cycleReports.map (cycleProblem file.link.entities), file.log_link,
      file.forall₂_danglingProblems, ?_⟩
    intro p hp
    obtain ⟨report, -, rfl⟩ := List.mem_map.mp hp
    rfl
  counted := by
    rw [count_link]
    simp

/-- A wall that refers to itself and to missing entities, at different depths, and a point that only a
relationship refers to. -/
def raggedFile : ExchangeFile :=
  ⟨{}, [⟨7, .wall, [.typed "M" [.list [.ref 7, .ref 9]], .list [.ref 8, .ref 9, .omitted]]⟩,
      ⟨2, .relAggregates, [.ref 7, .list [.ref 3]]⟩,
      ⟨3, .cartesianPoint, [.list [.integer 0, .integer 1]]⟩].foldl EntityTable.push {}, .empty 50⟩

/-- Linking the ragged file loses nothing. -/
theorem link_lossless_raggedFile : raggedFile.table.Sound ∧ raggedFile.Lossless raggedFile.link := by
  have hsound : raggedFile.table.Sound := EntityTable.sound_empty.pushAll _ (by decide)
  exact ⟨hsound, link_lossless raggedFile hsound⟩

end ExchangeFile

end BuildingModel
