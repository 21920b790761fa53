import BuildingModel.Proofs.Linked.Extension
import BuildingModel.Proofs.ProblemLog

/-!
# The problems of linking

Linking adds to the log of a file one problem for each entity that refers to a missing entity, in file
order, and then one for each cycle that the walk has found. The problem of an entity names the first of its
references to nothing and counts the others (`ExchangeFile.TellsMissing`).
-/

namespace BuildingModel

open Exchange

namespace ExchangeFile

variable {file : ExchangeFile}

/-- Whether an entity refers to a number that no entity of the file has. -/
def dangles (file : ExchangeFile) (e : Entity) : Bool := (Value.refsOf e.params).any (!file.contains ·)

/-- The numbers that an entity refers to and that no entity of the file has, in reading order. -/
def missing (file : ExchangeFile) (e : Entity) : List EntityId :=
  (Value.refsOf e.params).filter (!file.contains ·)

/-- The problems of the entities that refer to nothing. -/
def danglingProblems (file : ExchangeFile) : List Problem :=
  file.link.entityList.filterMap (·.danglingProblem?)

/-- The cycles that linking has found, in the order of the walk. -/
def cycleReports (file : ExchangeFile) : List CycleReport :=
  (Walk.runAll file.link.references (file.link.entities.map (·.ownStatus))).reports.reverse

/-- The problems of linking: first what is missing, then what goes in circles. -/
def linkProblems (file : ExchangeFile) : List Problem :=
  file.danglingProblems ++ file.cycleReports.map (cycleProblem file.link.entities)

/-- Linking adds its problems to the log. -/
lemma log_link (file : ExchangeFile) : file.link.log = file.log.pushAll file.linkProblems := by
  rw [linkProblems, ProblemLog.pushAll_append]
  rfl

/-- Linking keeps the number of entities. -/
lemma size_link (file : ExchangeFile) : file.link.size = file.entities.length := by
  rw [LinkedModel.size, ← Array.length_toList, ← LinkedModel.entityList, entityList_link, List.length_map]

/-- There is a problem exactly if a reference dangles. -/
lemma isSome_danglingProblem? (e : LinkedEntity) : e.danglingProblem?.isSome = !e.danglings.isEmpty := by
  rw [LinkedEntity.danglingProblem?]
  cases e.danglings with
  | nil => rfl
  | cons target others => rfl

/-- The dangling references of a linked entity are the missing ones. -/
lemma danglings_link (e : Entity) : (e.link file.table.position?).danglings = file.missing e := by
  rw [LinkedEntity.danglings, Entity.link, Value.danglingsOf_linkAll, missing]
  apply List.filter_congr
  intro id _
  rw [Bool.eq_iff_iff, decide_eq_true_eq, position?_eq_none_iff, Bool.not_eq_true']

/-- There is a problem for each entity that misses something. -/
lemma isSome_danglingProblem?_link (e : Entity) :
    (e.link file.table.position?).danglingProblem?.isSome = file.dangles e := by
  rw [isSome_danglingProblem?, danglings_link, missing, dangles, Bool.eq_iff_iff, Bool.not_eq_true',
    List.isEmpty_eq_false_iff_exists_mem, List.any_eq_true]
  simp only [List.mem_filter]

/-- There is one problem for each entity that refers to nothing. -/
lemma length_danglingProblems : file.danglingProblems.length = file.entities.countP file.dangles := by
  rw [danglingProblems, entityList_link, List.filterMap_map, List.length_filterMap_eq_countP]
  simp only [Function.comp_apply, isSome_danglingProblem?_link]

/-- The problem names the first number that the entity misses, and counts the others. -/
def TellsMissing (file : ExchangeFile) (e : Entity) (p : Problem) : Prop :=
  ∃ first others, file.missing e = first :: others ∧ p.kind = .unresolvedReference ∧ p.entity = some e.id ∧
    p.message = s!"#{e.id} references missing entity #{first}" ++
      if others = [] then "" else s!" (and {others.length} more)"

/-- The problem names the entity and what it misses. -/
lemma tellsMissing_of_danglingProblem? {e : Entity} {p : Problem}
    (hp : (e.link file.table.position?).danglingProblem? = some p) : file.TellsMissing e p := by
  rw [LinkedEntity.danglingProblem?, danglings_link] at hp
  cases hmissing : file.missing e with
  | nil =>
    rw [hmissing] at hp
    cases hp
  | cons first others =>
    rw [hmissing] at hp
    cases hp
    refine ⟨first, others, hmissing, rfl, rfl, ?_⟩
    simp only [List.isEmpty_iff]
    rfl

/-- The problems of missing entities tell of the entities that refer to nothing, one by one. -/
lemma forall₂_danglingProblems (file : ExchangeFile) :
    List.Forall₂ file.TellsMissing (file.entities.filter file.dangles) file.danglingProblems := by
  rw [danglingProblems, entityList_link]
  induction file.entities with
  | nil => exact .nil
  | cons e es ih =>
    have hdangles : _ = file.dangles e := isSome_danglingProblem?_link e
    rw [List.map_cons]
    cases hp : (e.link file.table.position?).danglingProblem? with
    | none =>
      rw [hp, Option.isSome_none] at hdangles
      rw [List.filter_cons_of_neg (by simp [← hdangles]), List.filterMap_cons_none hp]
      exact ih
    | some p =>
      rw [hp, Option.isSome_some] at hdangles
      rw [List.filter_cons_of_pos hdangles.symm, List.filterMap_cons_some hp]
      exact .cons (tellsMissing_of_danglingProblem? hp) ih

/-- All these problems are of one kind. -/
lemma kind_of_mem_danglingProblems {p : Problem} (hp : p ∈ file.danglingProblems) :
    p.kind = .unresolvedReference := by
  rw [danglingProblems, entityList_link] at hp
  obtain ⟨linked, hlinked, hp⟩ := List.mem_filterMap.mp hp
  obtain ⟨e, -, rfl⟩ := List.mem_map.mp hlinked
  obtain ⟨first, others, -, hkind, -⟩ := tellsMissing_of_danglingProblem? hp
  exact hkind

/-- What linking adds to the counts of a log. -/
lemma count_link (file : ExchangeFile) (kind : ProblemKind) :
    file.link.log.count kind = file.log.count kind + .ofNat
      ((if kind = .unresolvedReference then file.entities.countP file.dangles else 0) +
        if kind = .cyclicReference then file.cycleReports.length else 0) := by
  have hmissing : file.danglingProblems.countP (·.kind = kind) =
      if kind = .unresolvedReference then file.entities.countP file.dangles else 0 := by
    split
    · rename_i hkind
      rw [← length_danglingProblems, List.countP_eq_length]
      intro p hp
      rw [kind_of_mem_danglingProblems hp, hkind, decide_eq_true_eq]
    · rename_i hkind
      rw [List.countP_eq_zero]
      intro p hp
      rw [kind_of_mem_danglingProblems hp, decide_eq_true_eq]
      exact Ne.symm hkind
  have hcycles : (file.cycleReports.map (cycleProblem file.link.entities)).countP (·.kind = kind) =
      if kind = .cyclicReference then file.cycleReports.length else 0 := by
    rw [List.countP_map]
    split
    · rename_i hkind
      subst hkind
      exact List.countP_eq_length.mpr fun _ _ => rfl
    · rename_i hkind
      rw [List.countP_eq_zero]
      intro report _
      exact fun h => hkind (of_decide_eq_true h).symm
  rw [log_link, ProblemLog.count_pushAll, linkProblems, List.countP_append, hmissing, hcycles]

end ExchangeFile

end BuildingModel
