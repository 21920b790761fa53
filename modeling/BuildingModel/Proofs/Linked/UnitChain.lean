import Mathlib
import BuildingModel.Linked.LengthUnit
import BuildingModel.Proofs.Exchange.Table

/-!
# Chains of length units

A converted unit is so many of another unit, which may be converted itself: `UnitChain` follows the conversions
down to a metric unit and gathers their values. The length unit of a model is the product of these values and
the factor of the metric unit, as long as there are at most four conversions. Of a longer chain five units are
followed, and the unit that the fifth is measured in counts as a metre (`lengthUnit_of_unitChain`).
-/

namespace BuildingModel

open Exchange

namespace LinkedModel

/-- The factor of a metric unit: that of its prefix, and one without a prefix. -/
def metricFactor (unit : LinkedEntity) : Float := (((unit.param? 2).bind (·.enum?)).map prefixFactor).getD 1.0

/-- From a unit, a chain of conversions with these values ends at a metric unit with the factor `s`. -/
inductive UnitChain (m : LinkedModel) : LinkedEntity → List Float → Float → Prop where
  | metric {unit} :
    unit.kind = .siUnit →
    isLengthUnit unit = true →
    UnitChain m unit [] (metricFactor unit)
  | converted {unit measure next value values s} :
    unit.kind = .conversionBasedUnit →
    isLengthUnit unit = true →
    m.follow? unit 3 = some measure →
    measure.number? 0 = some value →
    m.follow? measure 1 = some next →
    UnitChain m next values s →
    UnitChain m unit (value :: values) s

variable {m : LinkedModel} {unit : LinkedEntity} {values : List Float} {s : Float}

/-- A unit gives a length: it is metric or converted, and measures length. -/
def GivesLength (unit : LinkedEntity) : Prop :=
  (unit.kind = .siUnit ∨ unit.kind = .conversionBasedUnit) ∧ isLengthUnit unit = true

/-- The first project assigns units, and the first of them that gives a length is `unit`. -/
structure FirstLengthUnit (m : LinkedModel) (unit : LinkedEntity) : Prop where
  intro ::
  exists_assignment : ∃ project assignment items before after,
    m.firstOfKind? .project = some project ∧ m.follow? project 8 = some assignment ∧
      assignment.kind = .unitAssignment ∧ assignment.list? 0 = some items ∧
      m.followAll items = before ++ unit :: after ∧ ∀ u ∈ before, ¬ GivesLength u

/-- What gives no length has no factor. -/
lemma unitFactor?_eq_none (hunit : ¬ GivesLength unit) (links : Nat) : m.unitFactor? links unit = none := by
  cases links with
  | zero => rfl
  | succ links =>
    rw [unitFactor?]
    split
    · rfl
    · rename_i hlength
      rw [Bool.not_eq_true', Bool.not_eq_false] at hlength
      split
      · rename_i hkind
        exact absurd ⟨.inl hkind, hlength⟩ hunit
      · rename_i hkind
        exact absurd ⟨.inr hkind, hlength⟩ hunit
      · rfl

/-- A metric unit has its own factor. -/
lemma unitFactor?_metric (hkind : unit.kind = .siUnit) (hlength : isLengthUnit unit = true) (links : Nat) :
    m.unitFactor? (links + 1) unit = some (metricFactor unit) := by
  rw [unitFactor?, metricFactor]
  simp only [hlength, hkind]
  cases (unit.param? 2).bind (·.enum?) with
  | none => rfl
  | some name => rfl

/-- A conversion multiplies the factor of the next unit, or one if there is none. -/
lemma unitFactor?_converted {measure next : LinkedEntity} {value : Float}
    (hkind : unit.kind = .conversionBasedUnit) (hlength : isLengthUnit unit = true)
    (hmeasure : m.follow? unit 3 = some measure) (hvalue : measure.number? 0 = some value)
    (hnext : m.follow? measure 1 = some next) (links : Nat) :
    m.unitFactor? (links + 1) unit = some (value * (m.unitFactor? links next).getD 1.0) := by
  rw [unitFactor?]
  simp [hlength, hkind, hmeasure, hvalue, hnext]

/-- What is found along a chain of which `links` units are followed. -/
lemma UnitChain.unitFactor?_eq (hchain : m.UnitChain unit values s) (links : Nat) :
    m.unitFactor? (links + 1) unit =
      some ((values.take (links + 1)).foldr (· * ·) (if values.length ≤ links then s else 1.0)) := by
  induction hchain generalizing links with
  | metric hkind hlength =>
    rw [unitFactor?_metric hkind hlength]
    simp
  | converted hkind hlength hmeasure hvalue hnext _ ih =>
    rw [unitFactor?_converted hkind hlength hmeasure hvalue hnext]
    -- with no link left the next unit has no factor, even if it is the metric one
    cases links with
    | zero => simp [unitFactor?]
    | succ links => simp [ih]

/-- What a chain gives as the first length unit of its model. -/
lemma FirstLengthUnit.lengthUnit_eq (hunit : m.FirstLengthUnit unit) {factor : Float}
    (hfactor : m.unitFactor? unitChainLimit unit = some factor) : m.lengthUnit = factor := by
  obtain ⟨project, assignment, items, before, after, hproject, hassignment, hkind, hitems, hunits, hbefore⟩ := hunit
  have hassigned : m.assignedUnits = before ++ unit :: after := by
    rw [assignedUnits, hproject, Option.bind_some, hassignment]
    simp only [hkind, if_true, hitems, Option.getD_some, hunits]
  have hskip : before.findSome? (m.unitFactor? unitChainLimit) = none := by
    rw [List.findSome?_eq_none_iff]
    exact fun u hu => unitFactor?_eq_none (hbefore u hu) _
  rw [lengthUnit, hassigned, List.findSome?_append, hskip, Option.none_or, List.findSome?_cons, hfactor]
  rfl

/-- Conversions multiply along a chain of at most four of them, down to the metric unit. Of a longer chain the
first five are followed, and what lies beyond counts as a metre. -/
theorem lengthUnit_of_unitChain (hunit : m.FirstLengthUnit unit) (hchain : m.UnitChain unit values s) :
    (values.length ≤ 4 → m.lengthUnit = values.foldr (· * ·) s) ∧
      (5 ≤ values.length → m.lengthUnit = (values.take 5).foldr (· * ·) 1.0) := by
  have hlength := hunit.lengthUnit_eq (hchain.unitFactor?_eq 4)
  constructor
  · intro hfew
    rw [hlength, if_pos hfew, List.take_of_length_le (Nat.le_succ_of_le hfew)]
  · intro hmany
    rw [hlength, if_neg (Nat.not_le_of_lt hmany)]

/-! ## Units that double -/

/-- A millimetre at place 0, and at each even place twice the unit two places before; its measure stands
between them. The number of an entity is the one after its place. -/
def doubling (i : Nat) : Entity :=
  if i = 0 then ⟨1, .siUnit, [.derived, .enum "LENGTHUNIT", .enum "MILLI", .enum "METRE"]⟩
  else if i % 2 = 1 then ⟨UInt64.ofNat (i + 1), .measureWithUnit, [.real 2, .ref (UInt64.ofNat i)]⟩
  else ⟨UInt64.ofNat (i + 1), .conversionBasedUnit,
    [.omitted, .enum "LENGTHUNIT", .text "DOUBLE", .ref (UInt64.ofNat i)]⟩

/-- The same entity, linked to the place before it. -/
def linkedDoubling (i : Nat) : LinkedEntity := (doubling i).link fun _ => some (i - 1)

/-- The entities of a project whose length unit is a millimetre doubled `n` times. It assigns an area unit first. -/
def doublingEntities (n : Nat) : List Entity :=
  (List.range (2 * n + 1)).map doubling ++
    [⟨100, .siUnit, [.derived, .enum "AREAUNIT", .omitted, .enum "SQUARE_METRE"]⟩,
      ⟨101, .unitAssignment, [.list [.ref 100, .ref (UInt64.ofNat (2 * n + 1))]]⟩,
      ⟨102, .project, List.replicate 8 .omitted ++ [.ref 101]⟩]

def doublings (n : Nat) : ExchangeFile where
  header := {}
  table := (doublingEntities n).foldl EntityTable.push {}
  log := .empty defaultProblemLimit

/-- Its entities, linked. -/
def linkedDoublings (n : Nat) : List LinkedEntity :=
  (List.range (2 * n + 1)).map linkedDoubling ++
    [⟨100, .siUnit, [.derived, .enum "AREAUNIT", .omitted, .enum "SQUARE_METRE"]⟩,
      ⟨101, .unitAssignment, [.list [.link (2 * n + 1), .link (2 * n)]]⟩,
      ⟨102, .project, List.replicate 8 .omitted ++ [.link (2 * n + 2)]⟩]

/-- The number of an entity is the one after its place. -/
lemma id_doubling (i : Nat) : (doubling i).id = UInt64.ofNat (i + 1) := by
  rw [doubling]
  split
  · rename_i hi
    rw [hi]
    rfl
  · split
    · rfl
    · rfl

section

variable {n : Nat} (hn : n < 49)

include hn

/-- These numbers are small enough for 64 bits. -/
lemma toNat_ofNat_doubling {i : Nat} (hi : i ∈ List.range (2 * n + 1)) : (UInt64.ofNat (i + 1)).toNat = i + 1 := by
  rw [List.mem_range] at hi
  rw [UInt64.toNat_ofNat', Nat.mod_eq_of_lt (by omega)]

/-- The numbers up to that of the length unit differ, and are below those of the last three entities. -/
lemma nodup_doublingEntities : ((doublingEntities n).map (·.id)).Nodup := by
  have hids : (doublingEntities n).map (·.id) =
      (List.range (2 * n + 1)).map (fun i => UInt64.ofNat (i + 1)) ++ [100, 101, 102] := by
    simp [doublingEntities, id_doubling]
  rw [hids]
  apply List.Nodup.append
  · apply List.nodup_range.map_on
    intro i hi j hj hsame
    have hnat := congrArg UInt64.toNat hsame
    rw [toNat_ofNat_doubling hn hi, toNat_ofNat_doubling hn hj] at hnat
    exact Nat.succ.inj hnat
  · decide
  · intro id hid hlast
    obtain ⟨i, hi, rfl⟩ := List.mem_map.mp hid
    have hlarge : ∀ id ∈ [100, 101, 102], 100 ≤ UInt64.toNat id := by simp
    have hnat := hlarge _ hlast
    rw [toNat_ofNat_doubling hn hi] at hnat
    rw [List.mem_range] at hi
    omega

/-- The table of the file is sound. -/
lemma sound_doublings : (doublings n).table.Sound :=
  EntityTable.sound_empty.pushAll _ (nodup_doublingEntities hn)

/-- A number leads to the place of its entity. -/
lemma position?_doublings {i : Nat} {id : EntityId} (hid : ((doublingEntities n)[i]?).map (·.id) = some id) :
    (doublings n).table.position? id = some i := by
  rw [sound_doublings hn id i, ← Array.getElem?_toList, doublings, EntityTable.entities_foldl_push]
  exact hid

/-- The entities of the linked file. -/
lemma entities_doublings : (doublings n).link.entities = (linkedDoublings n).toArray := by
  have hchain : ∀ i < 2 * n + 1, (doublings n).table.position? (UInt64.ofNat (i + 1)) = some i := by
    intro i hi
    apply position?_doublings hn
    rw [doublingEntities, List.getElem?_append_left (by simpa using hi)]
    simp [hi, id_doubling]
  have harea : (doublings n).table.position? 100 = some (2 * n + 1) := by
    apply position?_doublings hn
    rw [doublingEntities, List.getElem?_append_right (by simp)]
    simp
  have hassignment : (doublings n).table.position? 101 = some (2 * n + 2) := by
    apply position?_doublings hn
    rw [doublingEntities, List.getElem?_append_right (by simp)]
    simp
  have hdoubling : ∀ i ∈ List.range (2 * n + 1),
      (doubling i).link (doublings n).table.position? = linkedDoubling i := by
    intro i hi
    rw [List.mem_range] at hi
    cases i with
    | zero => rfl
    | succ i =>
      have hlink := hchain i (by omega)
      rw [linkedDoubling, doubling, if_neg (Nat.succ_ne_zero i)]
      split
      · simp only [Entity.link, Value.linkAll, Value.link, hlink, Nat.add_sub_cancel]
      · simp only [Entity.link, Value.linkAll, Value.link, hlink, Nat.add_sub_cancel]
  have hlist : (doublings n).table.entities.toList = doublingEntities n := EntityTable.entities_foldl_push _ _
  rw [← Array.toList_inj, ExchangeFile.link, Array.toList_map, hlist, doublingEntities, linkedDoublings,
    List.map_append, List.map_map]
  congr 1
  · exact List.map_congr_left hdoubling
  · simp only [Entity.link, Value.linkAll, Value.link, List.map_cons, List.map_nil, List.replicate_succ,
      List.replicate_zero, List.cons_append, List.nil_append, harea, hassignment, hchain (2 * n) (by omega)]

end

section

variable {n : Nat} (hm : m.entities = (linkedDoublings n).toArray)

include hm

/-- The unit at a place. -/
lemma get?_doublings {i : Nat} (hi : i < 2 * n + 1) : m.get? i = some (linkedDoubling i) := by
  rw [get?, hm, List.getElem?_toArray, linkedDoublings, List.getElem?_append_left (by simpa using hi)]
  simp [hi]

/-- From the unit that has been doubled `k` times. -/
lemma unitChain_doublings {k : Nat} (hk : k ≤ n) :
    m.UnitChain (linkedDoubling (2 * k)) (List.replicate k 2) (prefixFactor "MILLI") := by
  induction k with
  | zero => exact .metric rfl rfl
  | succ k ih =>
    have hmeasure := get?_doublings hm (i := 2 * k + 1) (by omega)
    have hnext := get?_doublings hm (i := 2 * k) (by omega)
    have hplace : linkedDoubling (2 * k + 1) =
        ⟨UInt64.ofNat (2 * k + 1 + 1), .measureWithUnit, [.real 2, .link (2 * k)]⟩ := by
      simp [linkedDoubling, doubling, Entity.link, Value.linkAll, Value.link]
    have hunit : linkedDoubling (2 * (k + 1)) = ⟨UInt64.ofNat (2 * k + 2 + 1), .conversionBasedUnit,
        [.omitted, .enum "LENGTHUNIT", .text "DOUBLE", .link (2 * k + 1)]⟩ := by
      simp [linkedDoubling, doubling, Entity.link, Value.linkAll, Value.link, Nat.mul_add]
    rw [hplace] at hmeasure
    rw [hunit, List.replicate_succ]
    exact .converted rfl rfl hmeasure rfl hnext (ih (Nat.le_of_succ_le hk))

/-- The doubled unit is the first one that gives a length. -/
lemma firstLengthUnit_doublings : m.FirstLengthUnit (linkedDoubling (2 * n)) := by
  have hunit := get?_doublings hm (i := 2 * n) (by omega)
  have hlast : ∀ i, m.get? (2 * n + 1 + i) =
      [(⟨100, .siUnit, [.derived, .enum "AREAUNIT", .omitted, .enum "SQUARE_METRE"]⟩ : LinkedEntity),
        ⟨101, .unitAssignment, [.list [.link (2 * n + 1), .link (2 * n)]]⟩,
        ⟨102, .project, List.replicate 8 .omitted ++ [.link (2 * n + 2)]⟩][i]? := by
    intro i
    rw [get?, hm, List.getElem?_toArray, linkedDoublings, List.getElem?_append_right (by simp)]
    simp
  have hproject : m.firstOfKind? .project =
      some ⟨102, .project, List.replicate 8 .omitted ++ [.link (2 * n + 2)]⟩ := by
    have hnone : ((List.range (2 * n + 1)).map linkedDoubling).find? (·.kind = .project) = none := by
      rw [List.find?_eq_none, List.forall_mem_map]
      intro i _
      simp only [linkedDoubling, Entity.link, doubling]
      split
      · simp
      · split
        · simp
        · simp
    rw [firstOfKind?, entityList, hm, List.toList_toArray, linkedDoublings, List.find?_append, hnone]
    rfl
  have hunits : m.followAll [.link (2 * n + 1), .link (2 * n)] =
      [⟨100, .siUnit, [.derived, .enum "AREAUNIT", .omitted, .enum "SQUARE_METRE"]⟩, linkedDoubling (2 * n)] := by
    simp [followAll, LinkedValue.link?, hunit, hlast 0]
  refine ⟨_, _, _, [_], [], hproject, hlast 1, rfl, rfl, hunits, ?_⟩
  rw [List.forall_mem_singleton]
  exact fun h => absurd h.2 (by decide)

end

/-- Four doublings of a millimetre multiply up. -/
theorem lengthUnit_of_unitChain_four :
    (doublings 4).link.FirstLengthUnit (linkedDoubling 8) ∧
      (doublings 4).link.UnitChain (linkedDoubling 8) [2, 2, 2, 2] (prefixFactor "MILLI") ∧
      (doublings 4).link.lengthUnit = 2 * (2 * (2 * (2 * prefixFactor "MILLI"))) := by
  have hunit := firstLengthUnit_doublings (entities_doublings (n := 4) (by decide))
  have hchain := unitChain_doublings (entities_doublings (n := 4) (by decide)) (le_refl 4)
  exact ⟨hunit, hchain, (lengthUnit_of_unitChain hunit hchain).1 (le_refl 4)⟩

/-- A millimetre doubled five times is not 0.032 metres, but 32: the metric unit is the sixth of the chain. -/
theorem lengthUnit_doublings_five :
    (doublings 5).link.FirstLengthUnit (linkedDoubling 10) ∧
      (doublings 5).link.UnitChain (linkedDoubling 10) [2, 2, 2, 2, 2] (prefixFactor "MILLI") ∧
      (doublings 5).link.lengthUnit = 32 ∧
      (doublings 5).link.lengthUnit ≠ [2, 2, 2, 2, 2].foldr (· * ·) (prefixFactor "MILLI") := by
  have hunit := firstLengthUnit_doublings (entities_doublings (n := 5) (by decide))
  have hchain := unitChain_doublings (entities_doublings (n := 5) (by decide)) (le_refl 5)
  have hlength := hunit.lengthUnit_eq (hchain.unitFactor?_eq 4)
  have hfactor : (doublings 5).link.lengthUnit = 32 := by
    rw [hlength]
    decide +kernel
  refine ⟨hunit, hchain, hfactor, ?_⟩
  rw [hfactor]
  decide +kernel

end LinkedModel

end BuildingModel
