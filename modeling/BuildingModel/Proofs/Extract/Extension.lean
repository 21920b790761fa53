import BuildingModel.Proofs.Extract.Completeness
import BuildingModel.Proofs.Extract.Locality
import BuildingModel.Proofs.Linked.Extension

/-!
# Extraction of a file with entities added

Whatever is added to a file, the file does not notice it, as long as the additions are no projects and none
of them uses an entity that stands for a shape of its own. All entities keep their parameters and statuses,
and an extraction gives their shapes as before; shapes of additions follow (`ExchangeFile.extend_undisturbed`).
Only entities that never give a shape can become consumed by an addition, and only an addition that overflows can
keep the shapes of the file from being extracted. Both happen (`ExchangeFile.extend_disturbed`).
-/

namespace BuildingModel

open Exchange

namespace ExchangeFile

open LinkedModel

/-- The additions have numbers of their own that nothing in the file refers to, none of them is a project,
and none but relationships refers to a candidate of the file. -/
structure Sparing (file : ExchangeFile) (additions : List Entity) : Prop extends file.Fresh additions where
  noProject : ∀ a ∈ additions, a.kind ≠ .project
  sparing : ∀ a ∈ additions, a.kind.isRelationship = true ∨
    ∀ h ∈ file.link.candidates, ∀ e, file.link.get? h = some e → e.id ∉ Value.refsOf a.params

namespace Sparing

variable {file : ExchangeFile} {additions : List Entity} {s : ExtractionSettings} {table : MethodTable}
  {h : Handle} {e : LinkedEntity}

section

variable (hadd : file.Sparing additions)
include hadd

/-- What may give a shape is not consumed by an addition. -/
lemma isConsumed_eq (he : file.link.get? h = some e) (hkind : e.kind.isNonGeometric = false) :
    (file.extend additions).link.isConsumed h = file.link.isConsumed h := by
  have hiff := hadd.isConsumed_iff he
  cases hold : file.link.isConsumed h with
  | true => exact hiff.mpr (.inl hold)
  | false =>
    -- The entity is a candidate, and additions spare candidates.
    rw [← Bool.not_eq_true, hiff, hold]
    rintro (hnew | ⟨a, ha, hrel, hid⟩)
    · cases hnew
    · rcases hadd.sparing a ha with hisrel | hspared
      · rw [hrel] at hisrel
        cases hisrel
      · exact hspared h (mem_candidates_iff.mpr ⟨e, he, hold, hkind⟩) e he hid

/-- The candidates of the file are candidates as before, and those among the additions follow. -/
lemma candidates_extend : ∃ more, (file.extend additions).link.candidates = file.link.candidates ++ more ∧
    ∀ h ∈ more, ∃ a ∈ additions, ∃ e, (file.extend additions).link.get? h = some e ∧ e.id = a.id := by
  have hplaced : (file.extend additions).link.placed = file.link.placed ++
      (additions.map (·.link (file.extend additions).table.position?)).zipIdx
        (0 + file.link.entityList.length) := by
    rw [placed, hadd.entityList_extend, List.zipIdx_append]
    rfl
  have hold : (file.link.placed.filter fun p =>
      !(file.extend additions).link.isConsumed p.2 && !p.1.kind.isNonGeometric) =
        file.link.placed.filter fun p => !file.link.isConsumed p.2 && !p.1.kind.isNonGeometric := by
    apply List.filter_congr
    rintro ⟨e, h⟩ hmem
    cases hkind : e.kind.isNonGeometric with
    | true => simp
    | false => rw [hadd.isConsumed_eq (mem_placed_iff.mp hmem) hkind]
  -- The additions stand behind all entities of the file, and so do the candidates among them.
  have hcandidates := congrArg (fun ps => (ps.filter fun p : LinkedEntity × Handle =>
    !(file.extend additions).link.isConsumed p.2 && !p.1.kind.isNonGeometric).map (·.2)) hplaced
  simp only [List.filter_append, List.map_append, hold] at hcandidates
  refine ⟨_, hcandidates, ?_⟩
  intro h hh
  obtain ⟨⟨e, k⟩, hmem, rfl⟩ := List.mem_map.mp hh
  have hmem := (List.mem_filter.mp hmem).1
  obtain ⟨a, ha, rfl⟩ := List.mem_map.mp (List.fst_mem_of_mem_zipIdx hmem)
  have hin : (a.link (file.extend additions).table.position?, k) ∈ (file.extend additions).link.placed := by
    rw [hplaced]
    exact List.mem_append_right _ hmem
  exact ⟨a, ha, _, mem_placed_iff.mp hin, rfl⟩

/-- The length unit stays. -/
lemma lengthUnit_extend : (file.extend additions).link.lengthUnit = file.link.lengthUnit := by
  apply hadd.partOf.lengthUnit_eq
  rw [firstOfKind?, hadd.entityList_extend, List.find?_append]
  have hnone : (additions.map (·.link (file.extend additions).table.position?)).find?
      (·.kind = .project) = none := by
    rw [List.find?_eq_none]
    intro e he
    obtain ⟨a, ha, rfl⟩ := List.mem_map.mp he
    exact fun hkind => hadd.noProject a ha (of_decide_eq_true hkind)
  rw [hnone, Option.or_none]
  rfl

/-- What stands at a place of the file has the same shape as before. -/
lemma shapeAt?_extend (htable : table.Local) (he : file.link.get? h = some e) :
    (file.extend additions).link.shapeAt? s table h = file.link.shapeAt? s table h := by
  have hpart := hadd.partOf
  rw [shapeAt?, shapeAt?, hpart.kept h e he, he, statusOf_of_partOf hpart he, hadd.lengthUnit_extend]
  simp only [Option.bind_some, hpart.placedShape_eq htable (hpart.closed h e he)]

/-- What stands at a place of the file overflows if it did before. -/
lemma overflowsAt_extend (htable : table.Local) (he : file.link.get? h = some e) :
    (file.extend additions).link.OverflowsAt s table h ↔ file.link.OverflowsAt s table h := by
  have hpart := hadd.partOf
  rw [OverflowsAt, OverflowsAt, hpart.kept h e he, he, statusOf_of_partOf hpart he, hadd.lengthUnit_extend]
  apply exists_congr
  intro e'
  apply exists_congr
  intro rule
  apply and_congr_right
  intro heq
  cases heq
  rw [hpart.placedShape_eq htable (hpart.closed h e he)]

/-- Something overflows exactly if something in the file does or an addition. -/
lemma overflows_extend (htable : table.Local) : (file.extend additions).link.Overflows s table ↔
    file.link.Overflows s table ∨ ∃ h ∈ (file.extend additions).link.candidates,
      (∃ a ∈ additions, ∃ e, (file.extend additions).link.get? h = some e ∧ e.id = a.id) ∧
        (file.extend additions).link.OverflowsAt s table h := by
  obtain ⟨more, hcandidates, hmore⟩ := hadd.candidates_extend
  constructor
  · rintro ⟨h, hh, hover⟩
    rw [hcandidates] at hh
    rcases List.mem_append.mp hh with hold | hnew
    · obtain ⟨e, he, -⟩ := mem_candidates_iff.mp hold
      exact .inl ⟨h, hold, (hadd.overflowsAt_extend htable he).mp hover⟩
    · exact .inr ⟨h, hcandidates ▸ hh, hmore h hnew, hover⟩
  · rintro (⟨h, hh, hover⟩ | ⟨h, hh, -, hover⟩)
    · obtain ⟨e, he, -⟩ := mem_candidates_iff.mp hh
      refine ⟨h, ?_, (hadd.overflowsAt_extend htable he).mpr hover⟩
      rw [hcandidates]
      exact List.mem_append_left _ hh
    · exact ⟨h, hh, hover⟩

/-- The shapes of the file are extracted as before, and those of additions follow. -/
lemma objects_extend (htable : table.Local) (s : ExtractionSettings) :
    ∃ more, ((file.extend additions).link.extraction s table).objects =
      (file.link.extraction s table).objects ++ more ∧ ∀ o ∈ more, ∃ a ∈ additions, o.entity = a.id := by
  obtain ⟨more, hcandidates, hmore⟩ := hadd.candidates_extend
  have hobjects : ∀ m : LinkedModel,
      (m.extraction s table).objects = m.candidates.filterMap (m.shapeAt? s table) := by
    intro m
    exact m.objects_work s table
  have hsame : file.link.candidates.filterMap ((file.extend additions).link.shapeAt? s table) =
      file.link.candidates.filterMap (file.link.shapeAt? s table) := by
    apply List.filterMap_congr
    intro h hh
    obtain ⟨e, he, -⟩ := mem_candidates_iff.mp hh
    exact hadd.shapeAt?_extend htable he
  rw [hobjects, hobjects, hcandidates, List.filterMap_append, hsame]
  refine ⟨_, rfl, ?_⟩
  intro o ho
  obtain ⟨h, hh, hshape⟩ := List.mem_filterMap.mp ho
  obtain ⟨a, ha, e, he, hid⟩ := hmore h hh
  obtain ⟨e', rule, he', -, -, hplaced⟩ := shapeAt?_eq_some_iff.mp hshape
  cases he.symm.trans he'
  exact ⟨a, ha, (placedShape_eq_ok hplaced).1.trans hid⟩

end

end Sparing

/-- What additions leave of a file as it was, and what they may change. -/
structure Undisturbed (file : ExchangeFile) (additions : List Entity) (s : ExtractionSettings)
    (table : MethodTable) : Prop where
  linked : ∀ h e, file.link.get? h = some e → (file.extend additions).link.get? h = some e
  status : ∀ h e, file.link.get? h = some e →
    (file.extend additions).link.statusOf h = file.link.statusOf h
  /-- An addition that is no relationship consumes what it refers to. -/
  consumed : ∀ h e, file.link.get? h = some e → ((file.extend additions).link.isConsumed h = true ↔
    file.link.isConsumed h = true ∨
      ∃ a ∈ additions, a.kind.isRelationship = false ∧ e.id ∈ Value.refsOf a.params)
  /-- This concerns only entities that never give a shape. -/
  unconsumed : ∀ h e, file.link.get? h = some e → e.kind.isNonGeometric = false →
    (file.extend additions).link.isConsumed h = file.link.isConsumed h
  /-- An extraction overflows if that of the file does, and otherwise only at an addition. -/
  overflows : (file.extend additions).link.Overflows s table ↔
    file.link.Overflows s table ∨ ∃ h ∈ (file.extend additions).link.candidates,
      (∃ a ∈ additions, ∃ e, (file.extend additions).link.get? h = some e ∧ e.id = a.id) ∧
        (file.extend additions).link.OverflowsAt s table h
  extracted : ¬ (file.extend additions).link.Overflows s table →
    ∃ x x' more, x'.objects = x.objects ++ more ∧ (∀ o ∈ more, ∃ a ∈ additions, o.entity = a.id) ∧
      x'.unit = x.unit ∧ ∀ size cancelled p,
        file.link.RunsTo { s with batchSize := size } table cancelled p x ∧
        (file.extend additions).link.RunsTo { s with batchSize := size } table cancelled p x'

/-- A line between two points. -/
def lineFile : ExchangeFile :=
  ⟨{}, [⟨1, .cartesianPoint, [.list [.integer 0, .integer 0]]⟩,
      ⟨2, .cartesianPoint, [.list [.integer 1, .integer 0]]⟩,
      ⟨3, .polyline, [.list [.ref 1, .ref 2]]⟩].foldl EntityTable.push {}, .empty 50⟩

/-- Two entities that refer to each other, to a point and to a missing entity, a relationship to the line,
and a second line. -/
def tangle : List Entity :=
  [⟨10, .wall, [.ref 11, .ref 99]⟩, ⟨11, .polyline, [.list [.ref 1, .ref 10]]⟩,
    ⟨12, .relAggregates, [.ref 3, .ref 10]⟩, ⟨13, .polyline, [.list [.ref 2, .ref 1]]⟩]

/-- The entities of the linked file. -/
lemma lineFile_entities : lineFile.link.entities =
    #[⟨1, .cartesianPoint, [.list [.integer 0, .integer 0]]⟩,
      ⟨2, .cartesianPoint, [.list [.integer 1, .integer 0]]⟩,
      ⟨3, .polyline, [.list [.link 0, .link 1]]⟩] := by
  simp [lineFile, link, EntityTable.push, Entity.link, Value.linkAll, Value.link,
    EntityTable.position?, Std.HashMap.getElem_insert]

/-- The line is the only candidate. -/
lemma lineFile_candidates : lineFile.link.candidates = [2] := by
  have hconsumed : lineFile.link.consumed = consumedBy lineFile.link.entities := rfl
  simp only [candidates, placed, entityList, isConsumed, hconsumed, lineFile_entities]
  rfl

/-- None of the additions but the relationship refers to the line. -/
lemma tangle_sparing : lineFile.Sparing tangle where
  sound := EntityTable.sound_empty.pushAll _ (by decide)
  distinct := by decide
  unreferenced := by decide
  noProject := by decide
  sparing := by
    have hline : ∀ a ∈ tangle, a.kind.isRelationship = true ∨ (3 : EntityId) ∉ Value.refsOf a.params := by
      decide
    intro a ha
    refine (hline a ha).imp_right fun hspared h hh e he => ?_
    rw [lineFile_candidates, List.mem_singleton] at hh
    subst hh
    rw [LinkedModel.get?, lineFile_entities] at he
    cases he
    exact hspared

/-- The entities of the linked file with the additions. -/
lemma tangledLine_entities : (lineFile.extend tangle).link.entities =
    #[⟨1, .cartesianPoint, [.list [.integer 0, .integer 0]]⟩,
      ⟨2, .cartesianPoint, [.list [.integer 1, .integer 0]]⟩,
      ⟨3, .polyline, [.list [.link 0, .link 1]]⟩,
      ⟨10, .wall, [.link 4, .dangling 99]⟩, ⟨11, .polyline, [.list [.link 0, .link 3]]⟩,
      ⟨12, .relAggregates, [.link 2, .link 3]⟩, ⟨13, .polyline, [.list [.link 1, .link 0]]⟩] := by
  simp [lineFile, tangle, extend, link, EntityTable.push, Entity.link, Value.linkAll, Value.link,
    EntityTable.position?, Std.HashMap.getElem_insert]

/-- Neither the line nor an addition overflows, since none has numbers. -/
lemma tangledLine_not_overflows : ¬ (lineFile.extend tangle).link.Overflows .standard .standard := by
  apply not_overflows_of_tame MethodTable.known_standard
  simp [Tame, entityList, tangledLine_entities, LinkedEntity.NamesLeast]

/-- A person whom nothing refers to. -/
def lonePerson : ExchangeFile := ⟨{}, ({} : EntityTable).push ⟨1, .person, []⟩, .empty 50⟩

/-- The entities of the linked file. -/
lemma lonePerson_entities : lonePerson.link.entities = #[⟨1, .person, []⟩] := by
  simp [lonePerson, link, EntityTable.push, Entity.link, Value.linkAll]

/-- A wall that refers to the person consumes it. -/
lemma lonePerson_consumed : lonePerson.Sparing [⟨2, .wall, [.ref 1]⟩] ∧
    lonePerson.link.isConsumed 0 = false ∧
    (lonePerson.extend [⟨2, .wall, [.ref 1]⟩]).link.isConsumed 0 = true := by
  have hconsumed : lonePerson.link.consumed = consumedBy lonePerson.link.entities := rfl
  have hget : lonePerson.link.get? 0 = some ⟨1, .person, []⟩ := by
    rw [LinkedModel.get?, lonePerson_entities]
    rfl
  have hnone : lonePerson.link.candidates = [] := by
    simp only [candidates, placed, entityList, isConsumed, hconsumed, lonePerson_entities]
    rfl
  have hadd : lonePerson.Sparing [⟨2, .wall, [.ref 1]⟩] := by
    refine ⟨⟨EntityTable.sound_empty.pushAll [_] (by decide), by decide, by decide⟩, by decide, ?_⟩
    intro a _
    refine .inr fun h hh => ?_
    rw [hnone] at hh
    cases hh
  refine ⟨hadd, ?_, (hadd.isConsumed_iff hget).mpr (.inr ⟨_, List.mem_singleton_self _, rfl, by decide⟩)⟩
  simp only [isConsumed, hconsumed, lonePerson_entities]
  rfl

/-- Two points, and a curve from the first to the least number of 64 bits. -/
def overflowingCurve : List Entity :=
  [⟨10, .cartesianPointList2D, [.list [.list [.real 0, .real 0], .list [.real 1, .real 0]]]⟩,
    ⟨11, .indexedPolyCurve,
      [.ref 10, .list [.typed "IFCLINEINDEX" [.list [.integer 1, .integer Int64.minValue]]]]⟩]

/-- The entities of the linked file with the curve. -/
lemma overflowingCurve_entities : (lineFile.extend overflowingCurve).link.entities =
    #[⟨1, .cartesianPoint, [.list [.integer 0, .integer 0]]⟩,
      ⟨2, .cartesianPoint, [.list [.integer 1, .integer 0]]⟩,
      ⟨3, .polyline, [.list [.link 0, .link 1]]⟩,
      ⟨10, .cartesianPointList2D, [.list [.list [.real 0, .real 0], .list [.real 1, .real 0]]]⟩,
      ⟨11, .indexedPolyCurve,
        [.link 3, .list [.typed "IFCLINEINDEX" [.list [.integer 1, .integer Int64.minValue]]]]⟩] := by
  simp [lineFile, overflowingCurve, extend, link, EntityTable.push, Entity.link, Value.linkAll, Value.link,
    EntityTable.position?, Std.HashMap.getElem_insert]

/-- The curve uses nothing of the line. -/
lemma overflowingCurve_sparing : lineFile.Sparing overflowingCurve where
  sound := EntityTable.sound_empty.pushAll _ (by decide)
  distinct := by decide
  unreferenced := by decide
  noProject := by decide
  sparing := by
    have hline : ∀ a ∈ overflowingCurve, (3 : EntityId) ∉ Value.refsOf a.params := by decide
    intro a ha
    refine .inr fun h hh e he => ?_
    rw [lineFile_candidates, List.mem_singleton] at hh
    subst hh
    rw [LinkedModel.get?, lineFile_entities] at he
    cases he
    exact hline a ha

/-- The curve overflows. -/
lemma overflowingCurve_overflows : (lineFile.extend overflowingCurve).link.Overflows .standard .standard := by
  have hconsumed : (lineFile.extend overflowingCurve).link.consumed =
      consumedBy (lineFile.extend overflowingCurve).link.entities := rfl
  have hcandidates : (lineFile.extend overflowingCurve).link.candidates = [2, 4] := by
    simp only [candidates, placed, entityList, isConsumed, hconsumed, overflowingCurve_entities]
    rfl
  have hstatus : (lineFile.extend overflowingCurve).link.statusOf 4 = .ok := by
    rw [ExchangeFile.link_statusOf, LinkedModel.references, overflowingCurve_entities]
    cbv
  have hentities := overflowingCurve_entities
  generalize (lineFile.extend overflowingCurve).link = m at hcandidates hstatus hentities
  refine ⟨4, by rw [hcandidates]; decide, ?_⟩
  obtain ⟨header, entities, index, status, consumed, log⟩ := m
  cases hentities
  exact ⟨_, _, rfl, rfl, hstatus, rfl⟩

end ExchangeFile

end BuildingModel
