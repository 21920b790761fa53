import BuildingModel.Proofs.Linked.SafeToWalk
import BuildingModel.Proofs.Walk.Cause

/-!
# What a status says

The status of each entity of a linked file, said through the file. An entity is unresolved if its own shape
refers to a number that no entity has, and broken if it misses nothing itself but needs an entity that is
unresolved or cyclic, directly or through others; being cyclic comes first in both cases
(`ExchangeFile.StatusExplained`). References to missing entities that no needed shape holds can be dropped
from the file without a change of the status.
-/

namespace BuildingModel

open Relation Exchange

/-! ## References before and after linking -/

namespace Value

variable (find : EntityId → Option Handle)

/-- Values are linked one by one. -/
lemma linkAll_eq (vs : List Value) : linkAll find vs = vs.map (link find) := by
  induction vs with
  | nil => rfl
  | cons v vs ih => rw [linkAll, ih, List.map_cons]

mutual
/-- The links of a linked value are its references to entities that are found. -/
theorem links_link : (v : Value) → (v.link find).links = v.refs.filterMap find
  | .ref id => by
    rw [link, refs, List.filterMap_cons, List.filterMap_nil]
    cases find id with
    | none => rfl
    | some target => rfl
  | .list items => by
    rw [link, LinkedValue.links, refs, linksOf_linkAll items]
  | .typed name args => by
    rw [link, LinkedValue.links, refs, linksOf_linkAll args]
  | .integer _ | .real _ | .text _ | .enum _ | .omitted | .derived => rfl

/-- The links of values are the references that are found. -/
theorem linksOf_linkAll : (vs : List Value) →
    LinkedValue.linksOf (linkAll find vs) = (refsOf vs).filterMap find
  | [] => rfl
  | v :: vs => by
    rw [linkAll, LinkedValue.linksOf, refsOf, List.filterMap_append, links_link v, linksOf_linkAll vs]
end

mutual
/-- The dangling references of a linked value are its references to entities that are not found. -/
theorem danglings_link : (v : Value) → (v.link find).danglings = v.refs.filter (find · = none)
  | .ref id => by
    rw [link, refs, List.filter_cons, List.filter_nil]
    cases find id with
    | none => rfl
    | some target => rfl
  | .list items => by
    rw [link, LinkedValue.danglings, refs, danglingsOf_linkAll items]
  | .typed name args => by
    rw [link, LinkedValue.danglings, refs, danglingsOf_linkAll args]
  | .integer _ | .real _ | .text _ | .enum _ | .omitted | .derived => rfl

/-- Their dangling ones are those that are not found. -/
theorem danglingsOf_linkAll : (vs : List Value) →
    LinkedValue.danglingsOf (linkAll find vs) = (refsOf vs).filter (find · = none)
  | [] => rfl
  | v :: vs => by
    rw [linkAll, LinkedValue.danglingsOf, refsOf, List.filter_append, danglings_link v,
      danglingsOf_linkAll vs]
end

mutual
/-- The value without its references to entities that are not found. -/
def dropMissing : Value → Value
  | .ref id => if (find id).isSome then .ref id else .omitted
  | .list items => .list (dropMissingAll items)
  | .typed name args => .typed name (dropMissingAll args)
  | v => v

def dropMissingAll : List Value → List Value
  | [] => []
  | v :: vs => v.dropMissing :: dropMissingAll vs
end

mutual
/-- Dropping leaves the references that are found. -/
theorem refs_dropMissing : (v : Value) → (v.dropMissing find).refs = v.refs.filter (find · |>.isSome)
  | .ref id => by
    rw [dropMissing, refs, List.filter_cons, List.filter_nil]
    split
    · rfl
    · rfl
  | .list items => by
    rw [dropMissing, refs, refs, refsOf_dropMissingAll items]
  | .typed name args => by
    rw [dropMissing, refs, refs, refsOf_dropMissingAll args]
  | .integer _ | .real _ | .text _ | .enum _ | .omitted | .derived => rfl

theorem refsOf_dropMissingAll : (vs : List Value) →
    refsOf (dropMissingAll find vs) = (refsOf vs).filter (find · |>.isSome)
  | [] => rfl
  | v :: vs => by
    rw [dropMissingAll, refsOf, refsOf, List.filter_append, refs_dropMissing v, refsOf_dropMissingAll vs]
end

/-- Dropping references to missing entities keeps all links. -/
lemma links_link_dropMissing (v : Value) :
    ((v.dropMissing find).link find).links = (v.link find).links := by
  rw [links_link, links_link, refs_dropMissing, List.filterMap_filter]
  congr
  funext id
  cases find id with
  | none => rfl
  | some target => rfl

end Value

/-! ## Parameters that feed a shape -/

/-- The parameter at place `i` feeds the shape of an entity of a kind. -/
def Kind.FeedsShape (kind : Kind) (i : Nat) : Prop := kind.isProduct ∨ kind.isSpatial → i = 5 ∨ i = 6

namespace Entity

variable (find : EntityId → Option Handle)

/-- Parameters are linked one by one. -/
lemma param?_link (e : Entity) (i : Nat) : (e.link find).param? i = (e.param? i).map (·.link find) := by
  rw [LinkedEntity.param?, link, Value.linkAll_eq, List.getElem?_map]
  rfl

/-- The entity misses something that its shape needs exactly if a parameter that feeds the shape refers to
a number that is not found. -/
lemma ownStatus_link_iff (e : Entity) :
    (e.link find).ownStatus = .unresolved ↔
      ∃ i v, e.param? i = some v ∧ e.kind.FeedsShape i ∧ ∃ id ∈ v.refs, find id = none := by
  have hown : (e.link find).ownStatus = .unresolved ↔ (e.link find).hasDanglingShape = true := by
    unfold LinkedEntity.ownStatus
    split
    · simp [*]
    · simp [*]
  rw [hown, LinkedEntity.hasDanglingShape_iff]
  constructor
  · rintro ⟨id, i, lv, hlv, hi, hid⟩
    rw [param?_link, Option.map_eq_some_iff] at hlv
    obtain ⟨v, hv, rfl⟩ := hlv
    rw [← LinkedValue.mem_danglings_iff, Value.danglings_link, List.mem_filter, decide_eq_true_eq] at hid
    exact ⟨i, v, hv, hi, id, hid⟩
  · rintro ⟨i, v, hv, hi, id, hid⟩
    refine ⟨id, i, v.link find, ?_, hi, ?_⟩
    · rw [param?_link, hv]
      rfl
    · rw [← LinkedValue.mem_danglings_iff, Value.danglings_link, List.mem_filter, decide_eq_true_eq]
      exact hid

/-- The entity with the references to missing entities dropped from the parameters that `sel` selects. -/
def dropMissing (sel : Nat → Bool) (e : Entity) : Entity :=
  { e with params := e.params.mapIdx fun i v => if sel i then v.dropMissing find else v }

variable {find} {sel : Nat → Bool}

/-- Parameters that are not selected stay as they are. -/
lemma param?_dropMissing {e : Entity} {i : Nat} (hi : sel i = false) :
    (e.dropMissing find sel).param? i = e.param? i := by
  rw [param?, dropMissing, List.getElem?_mapIdx, hi]
  simp [param?]

/-- Dropping missing references changes no link. -/
lemma map_links_dropMissing (e : Entity) :
    ((e.dropMissing find sel).link find).params.map (·.links) = (e.link find).params.map (·.links) := by
  apply List.ext_getElem?
  intro i
  simp only [link, dropMissing, Value.linkAll_eq, List.getElem?_map, List.getElem?_mapIdx]
  cases e.params[i]? with
  | none => rfl
  | some v =>
    by_cases hi : sel i = true
    · simp [hi, Value.links_link_dropMissing]
    · simp [hi]

/-- Whether an entity misses something is not changed by dropping references from parameters that do not
feed its shape. -/
lemma ownStatus_dropMissing {e : Entity} (hsel : ∀ i, sel i = true → ¬ e.kind.FeedsShape i) :
    ((e.dropMissing find sel).link find).ownStatus = .unresolved ↔
      (e.link find).ownStatus = .unresolved := by
  have hparam : ∀ i, e.kind.FeedsShape i → (e.dropMissing find sel).param? i = e.param? i := by
    intro i hi
    apply param?_dropMissing
    rw [← Bool.not_eq_true]
    exact fun h => hsel i h hi
  rw [ownStatus_link_iff, ownStatus_link_iff]
  constructor
  · rintro ⟨i, v, hv, hi, hid⟩
    exact ⟨i, v, (hparam i hi).symm.trans hv, hi, hid⟩
  · rintro ⟨i, v, hv, hi, hid⟩
    exact ⟨i, v, (hparam i hi).trans hv, hi, hid⟩

end Entity

/-- The links of an entity are those of its parameters. -/
lemma LinkedEntity.links_congr {e e' : LinkedEntity}
    (hlinks : e'.params.map (·.links) = e.params.map (·.links)) : e'.links = e.links := by
  rw [links, links, LinkedValue.linksOf_eq, LinkedValue.linksOf_eq, List.flatMap_def, List.flatMap_def,
    hlinks]

/-- Which shape links an entity has depends only on its kind and on the links of each parameter. -/
lemma LinkedEntity.shapeLinks_congr {e e' : LinkedEntity} (hkind : e'.kind = e.kind)
    (hlinks : e'.params.map (·.links) = e.params.map (·.links)) :
    LinkedValue.linksOf e'.shapeParams = LinkedValue.linksOf e.shapeParams := by
  have hshape : ∀ e : LinkedEntity, LinkedValue.linksOf e.shapeParams =
      ((e.params.map (·.links)).zipIdx.filter fun (_, i) => isShapeParam e.kind i).flatMap (·.1) := by
    intro e
    rw [LinkedValue.linksOf_eq, shapeParams, List.zipIdx_map, List.filter_map, List.flatMap_map,
      List.flatMap_map]
    rfl
  rw [hshape, hshape, hkind, hlinks]

namespace ExchangeFile

open LinkedModel

variable (file : ExchangeFile)

/-- The shape of the entity at a place refers to a number that no entity has. -/
def MissesInShape (h : Handle) : Prop :=
  ∃ e i v, file.table.entities[h]? = some e ∧ e.param? i = some v ∧ e.kind.FeedsShape i ∧
    ∃ id ∈ v.refs, file.contains id = false

/-- The file with the references to missing entities dropped from the parameters that `sel` selects. -/
def dropMissing (sel : Handle → Nat → Bool) : ExchangeFile :=
  { file with table := { file.table with
      entities := file.table.entities.mapIdx fun h e => e.dropMissing file.table.position? (sel h) } }

variable {file}

/-- A number without a place is not in the file. -/
lemma position?_eq_none_iff {id : EntityId} : file.table.position? id = none ↔ file.contains id = false := by
  rw [contains, EntityTable.contains, EntityTable.position?, Std.HashMap.contains_eq_isSome_getElem?,
    Option.isSome_eq_false_iff, Option.isNone_iff_eq_none]

/-- Entities are linked one by one. -/
lemma get?_link (h : Handle) :
    file.link.get? h = (file.table.entities[h]?).map (·.link file.table.position?) :=
  Array.getElem?_map

/-- Entities of which something has been dropped are linked one by one. -/
lemma get?_link_dropMissing (sel : Handle → Nat → Bool) (h : Handle) :
    (file.dropMissing sel).link.get? h = (file.table.entities[h]?).map fun e =>
      (e.dropMissing file.table.position? (sel h)).link file.table.position? := by
  rw [get?_link, dropMissing, Array.getElem?_mapIdx, Option.map_map]
  rfl

/-- The status of an entity before the walk. -/
lemma ownStatus_eq (h : Handle) :
    (file.link.entities.map (·.ownStatus)).getD h .ok =
      ((file.link.get? h).map (·.ownStatus)).getD .ok := by
  rw [Array.getD_eq_getD_getElem?, Array.getElem?_map]
  rfl

/-- At first the statuses are those of the entities themselves. -/
lemma ownStatuses (file : ExchangeFile) : Walk.OwnStatuses (file.link.entities.map (·.ownStatus)) := by
  intro h
  rw [ownStatus_eq]
  cases file.link.get? h with
  | none => exact .inl rfl
  | some e =>
    simp only [Option.map_some, Option.getD_some, LinkedEntity.ownStatus]
    split
    · exact .inr rfl
    · exact .inl rfl

/-- An entity is unresolved by itself exactly if its shape misses something. -/
lemma ownStatus_eq_unresolved_iff {h : Handle} :
    (file.link.entities.map (·.ownStatus)).getD h .ok = .unresolved ↔ file.MissesInShape h := by
  rw [ownStatus_eq, get?_link, MissesInShape]
  cases he : file.table.entities[h]? with
  | none => simp
  | some e =>
    simp only [Option.map_some, Option.getD_some, Entity.ownStatus_link_iff, position?_eq_none_iff,
      Option.some.injEq, ↓existsAndEq, true_and]

/-- Dropping references to missing entities leaves the references between entities as they are. -/
lemma references_dropMissing (sel : Handle → Nat → Bool) :
    (file.dropMissing sel).link.references = file.link.references := by
  have hnew : ∀ h, (file.dropMissing sel).link.get? h = _ := get?_link_dropMissing sel
  have hold : ∀ h, file.link.get? h = _ := get?_link
  have hkind : ∀ h, ((file.dropMissing sel).link.get? h).map (·.kind.isNonGeometric) =
      (file.link.get? h).map (·.kind.isNonGeometric) := by
    intro h
    rw [hnew, hold, Option.map_map, Option.map_map]
    rfl
  simp only [LinkedModel.get?] at hnew hold hkind
  rw [references, references, References.ofEntities, References.ofEntities, References.mk.injEq]
  constructor
  · apply Array.ext_getElem?
    intro h
    rw [Array.getElem?_map, Array.getElem?_map, hnew, hold]
    cases file.table.entities[h]? with
    | none => rfl
    | some e => exact congrArg some (LinkedEntity.links_congr e.map_links_dropMissing)
  · apply Array.ext_getElem?
    intro h
    simp only [Array.getElem?_map, hkind]
    rw [hnew, hold]
    cases file.table.entities[h]? with
    | none => rfl
    | some e =>
      have hlinks : LinkedValue.linksOf
            ((e.dropMissing file.table.position? (sel h)).link file.table.position?).shapeParams =
          LinkedValue.linksOf (e.link file.table.position?).shapeParams :=
        LinkedEntity.shapeLinks_congr rfl e.map_links_dropMissing
      simp only [Option.map_some, hlinks]

/-- What the status of the entity at a place says about the file. -/
structure StatusExplained (file : ExchangeFile) (h : Handle) : Prop where
  unresolved : file.link.statusOf h = .unresolved ↔
    file.link.statusOf h ≠ .cyclic ∧ file.MissesInShape h
  broken : file.link.statusOf h = .brokenDependency ↔
    file.link.statusOf h ≠ .cyclic ∧ ¬ file.MissesInShape h ∧
      ∃ b, TransGen file.link.NeedsForShape h b ∧
        (file.link.statusOf b = .unresolved ∨ file.link.statusOf b = .cyclic)
  /-- References to missing entities have no influence where they stand in no shape that is needed. -/
  unaffected : ∀ sel : Handle → Nat → Bool,
    (∀ a e i, ReflTransGen file.link.NeedsForShape h a → file.table.entities[a]? = some e →
      sel a i = true → ¬ e.kind.FeedsShape i) →
    (file.dropMissing sel).link.statusOf h = file.link.statusOf h

/-- What the walk follows for broken entities is what their shapes need. -/
lemma needs_references : file.link.references.Needs = file.link.NeedsForShape := by
  funext a b
  exact propext needs_references_iff

/-- Dropping what feeds no shape changes no status. -/
lemma ownStatus_getD_dropMissing {sel : Handle → Nat → Bool} {a : Handle}
    (hsel : ∀ e i, file.table.entities[a]? = some e → sel a i = true → ¬ e.kind.FeedsShape i) :
    ((file.dropMissing sel).link.entities.map (·.ownStatus)).getD a .ok =
      (file.link.entities.map (·.ownStatus)).getD a .ok := by
  have hiff : ((file.dropMissing sel).link.entities.map (·.ownStatus)).getD a .ok = .unresolved ↔
      (file.link.entities.map (·.ownStatus)).getD a .ok = .unresolved := by
    rw [ownStatus_eq, ownStatus_eq, get?_link_dropMissing, get?_link]
    cases he : file.table.entities[a]? with
    | none => rfl
    | some e => exact Entity.ownStatus_dropMissing fun i => hsel e i he
  obtain h | h := (file.dropMissing sel).ownStatuses a
  · obtain h' | h' := file.ownStatuses a
    · rw [h, h']
    · rw [hiff.mpr h', h']
  · rw [h, hiff.mp h]

/-- The status of every entity of every file has its reason in the file. -/
theorem link_statusExplained (file : ExchangeFile) (h : Handle) : file.StatusExplained h := by
  have hown := file.ownStatuses
  refine ⟨?_, ?_, ?_⟩
  · rw [link_statusOf, Walk.runAll_unresolved_iff, ownStatus_eq_unresolved_iff]
  · have hok : (file.link.entities.map (·.ownStatus)).getD h .ok = .ok ↔ ¬ file.MissesInShape h := by
      rw [← ownStatus_eq_unresolved_iff]
      obtain hs | hs := hown h
      · simp [hs]
      · simp [hs]
    rw [link_statusOf, Walk.runAll_broken_iff file.size_ownStatus file.link.shapeOut_subset hown, hok,
      needs_references]
    rfl
  · intro sel hsel
    rw [link_statusOf, link_statusOf, references_dropMissing]
    apply Walk.runAll_statusAt_congr
    · rw [← references_dropMissing sel]
      exact (file.dropMissing sel).size_ownStatus
    · exact file.size_ownStatus
    · exact file.link.shapeOut_subset
    · exact (file.dropMissing sel).ownStatuses
    · exact hown
    · intro a ha
      rw [needs_references] at ha
      exact ownStatus_getD_dropMissing fun e i => hsel a e i ha

end ExchangeFile

end BuildingModel
