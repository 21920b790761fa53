import BuildingModel.Linked.Query
import BuildingModel.Proofs.Linked.Extension
import BuildingModel.Proofs.Walk.DepthFirst

/-!
# Spatial containment

What the spatial tree says about a model, in terms of the relationships of the model. A container has as parts
the containers that it aggregates, and holds the elements that it contains and whatever else it aggregates
(`LinkedModel.HasPart`, `LinkedModel.HasElement`). Relationships may repeat each other, and containers may be
parts of each other in circles. The elements under a container are found by going through its parts depth
first (`DepthFirst`), which visits every container below it once.
-/

namespace BuildingModel

open Relation Exchange

/-! ## Parts and elements by relationships -/

namespace LinkedModel

/-- The relationship has a link to the entity at place `i`. -/
def Names (m : LinkedModel) (rel : LinkedEntity) (i : Nat) (e : LinkedEntity) : Prop :=
  ∃ h, rel.param? i = some (.link h) ∧ m.get? h = some e

/-- The relationship has a list at place `i`, and the entity is linked from it. -/
def Lists (m : LinkedModel) (rel : LinkedEntity) (i : Nat) (e : LinkedEntity) : Prop :=
  ∃ items h, rel.param? i = some (.list items) ∧ .link h ∈ items ∧ m.get? h = some e

/-- A relationship says that `whole` aggregates `part`. -/
def Aggregates (m : LinkedModel) (whole part : LinkedEntity) : Prop :=
  ∃ rel ∈ m.entityList, rel.kind = .relAggregates ∧ m.Names rel 4 whole ∧ m.Lists rel 5 part

/-- A relationship says that `container` contains `e`. -/
def Contains (m : LinkedModel) (container e : LinkedEntity) : Prop :=
  ∃ rel ∈ m.entityList, rel.kind = .relContainedInSpatialStructure ∧
    m.Names rel 5 container ∧ m.Lists rel 4 e

/-- The container `c` has the container `d` as a part. -/
def HasPart (m : LinkedModel) (c d : LinkedEntity) : Prop :=
  c.kind.isSpatial = true ∧ d.kind.isSpatial = true ∧ m.Aggregates c d

/-- The container `c` holds `e` itself. -/
def HasElement (m : LinkedModel) (c e : LinkedEntity) : Prop :=
  m.Contains c e ∨ e.kind.isSpatial = false ∧ m.Aggregates c e

/-- The container `c` has the number `n`, or lies below the container that has it. -/
def Under (m : LinkedModel) (n : EntityId) (c : LinkedEntity) : Prop :=
  ∃ top ∈ m.entityList, top.id = n ∧ top.kind.isSpatial = true ∧ ReflTransGen m.HasPart top c

/-- The entity is held by the container with the number `n` or by one below it. -/
def HeldUnder (m : LinkedModel) (n : EntityId) (e : LinkedEntity) : Prop :=
  ∃ c, m.Under n c ∧ m.HasElement c e

/-- The relationship has a link to the number of the entity at place `i`. -/
def leadsTo (m : LinkedModel) (rel : LinkedEntity) (i : Nat) (c : LinkedEntity) : Bool :=
  (m.follow? rel i).any (·.id = c.id)

/-- The parts that a relationship gives to a container. -/
def partsBy (m : LinkedModel) (c rel : LinkedEntity) : List LinkedEntity :=
  if rel.kind = .relAggregates && m.leadsTo rel 4 c then (m.related rel 5).filter (·.kind.isSpatial) else []

/-- The elements that a relationship gives to a container. -/
def elementsBy (m : LinkedModel) (c rel : LinkedEntity) : List LinkedEntity :=
  if rel.kind = .relAggregates && m.leadsTo rel 4 c then (m.related rel 5).filter (!·.kind.isSpatial)
  else if rel.kind = .relContainedInSpatialStructure && m.leadsTo rel 5 c then m.related rel 4
  else []

/-- The parts of a container, as the relationships list them. -/
def partsOf (m : LinkedModel) (c : LinkedEntity) : List LinkedEntity := m.entityList.flatMap (m.partsBy c)

/-- The elements of a container, as the relationships list them. -/
def elementsOf (m : LinkedModel) (c : LinkedEntity) : List LinkedEntity :=
  m.entityList.flatMap (m.elementsBy c)

/-- The containers, in file order. -/
def containers (m : LinkedModel) : List LinkedEntity := m.entityList.filter (·.kind.isSpatial)

/-- The container with a number. -/
def container? (m : LinkedModel) (n : EntityId) : Option LinkedEntity := m.containers.find? (·.id == n)

variable {m : LinkedModel} {c d e rel : LinkedEntity} {i : Nat} {h : Handle} {n n' : EntityId}

lemma link?_eq_some_iff {v : LinkedValue} : v.link? = some h ↔ v = .link h := by
  cases v <;> simp [LinkedValue.link?]

lemma list?_eq_some_iff {v : LinkedValue} {items : List LinkedValue} :
    v.list? = some items ↔ v = .list items := by
  cases v <;> simp [LinkedValue.list?]

/-- Following an attribute leads to the entity that is named there. -/
lemma follow?_eq_some_iff : m.follow? rel i = some e ↔ m.Names rel i e := by
  simp only [follow?, LinkedEntity.link?, Option.bind_eq_some_iff, link?_eq_some_iff, Names]
  grind

/-- Related entities are those that are listed. -/
lemma mem_related_iff : e ∈ m.related rel i ↔ m.Lists rel i e := by
  simp only [related, followAll, LinkedEntity.list?, List.mem_filterMap, Option.bind_eq_some_iff,
    link?_eq_some_iff, Lists]
  constructor
  · rintro ⟨v, hv, h, rfl, hget⟩
    cases hitems : (rel.param? i).bind (·.list?) with
    | none => simp [hitems] at hv
    | some items =>
      obtain ⟨w, hw, hlist⟩ := Option.bind_eq_some_iff.mp hitems
      rw [list?_eq_some_iff.mp hlist] at hw
      exact ⟨items, h, hw, by simpa [hitems] using hv, hget⟩
  · rintro ⟨items, h, hlist, hitem, hget⟩
    exact ⟨.link h, by simpa [hlist, LinkedValue.list?] using hitem, h, rfl, hget⟩

/-- Containers are the spatial entities of the file. -/
lemma mem_containers_iff : c ∈ m.containers ↔ c ∈ m.entityList ∧ c.kind.isSpatial = true := List.mem_filter

lemma mem_entityList_of_container (hc : c ∈ m.containers) : c ∈ m.entityList := (mem_containers_iff.mp hc).1

/-- An element is an entity of the file. -/
lemma HasElement.mem_entityList (he : m.HasElement c e) : e ∈ m.entityList := by
  obtain ⟨rel, -, -, -, items, h, -, -, hget⟩ | ⟨-, rel, -, -, -, items, h, -, -, hget⟩ := he
  · exact mem_entityList_of_get? hget
  · exact mem_entityList_of_get? hget

/-- A part is a container. -/
lemma HasPart.mem_containers (hpart : m.HasPart c d) : d ∈ m.containers := by
  obtain ⟨-, hspatial, rel, -, -, -, items, h, -, -, hget⟩ := hpart
  exact mem_containers_iff.mpr ⟨mem_entityList_of_get? hget, hspatial⟩

/-- What lies under a container is a container. -/
lemma Under.mem_containers (hunder : m.Under n c) : c ∈ m.containers := by
  obtain ⟨top, htop, -, hspatial, hreach⟩ := hunder
  cases hreach with
  | refl => exact mem_containers_iff.mpr ⟨htop, hspatial⟩
  | tail _ hpart => exact hpart.mem_containers

section Distinct

variable (hids : (m.entityList.map (·.id)).Nodup)
include hids

/-- The number determines the entity. -/
lemma eq_of_id_eq (hc : c ∈ m.entityList) (hd : d ∈ m.entityList) (hid : c.id = d.id) : c = d :=
  List.inj_on_of_nodup_map hids hc hd hid

/-- A relationship leads to a container by its number exactly if it names it. -/
lemma leadsTo_iff (hc : c ∈ m.entityList) : m.leadsTo rel i c = true ↔ m.Names rel i c := by
  rw [leadsTo, Option.any_eq_true]
  constructor
  · rintro ⟨whole, hwhole, hid⟩
    obtain ⟨h, hparam, hget⟩ := follow?_eq_some_iff.mp hwhole
    rw [eq_of_id_eq hids (mem_entityList_of_get? hget) hc (of_decide_eq_true hid)] at hget
    exact ⟨h, hparam, hget⟩
  · intro hnames
    exact ⟨c, follow?_eq_some_iff.mpr hnames, decide_eq_true rfl⟩

/-- The parts in the lists are the parts. -/
lemma mem_partsOf_iff (hc : c ∈ m.containers) : d ∈ m.partsOf c ↔ m.HasPart c d := by
  obtain ⟨hlist, hspatial⟩ := mem_containers_iff.mp hc
  simp only [partsOf, partsBy, List.mem_flatMap, List.mem_ite_nil_right, Bool.and_eq_true, decide_eq_true_eq,
    leadsTo_iff hids hlist, List.mem_filter, mem_related_iff, HasPart, Aggregates, hspatial, true_and]
  constructor
  · rintro ⟨rel, hrel, ⟨hkind, hnames⟩, hd, hspatial⟩
    exact ⟨hspatial, rel, hrel, hkind, hnames, hd⟩
  · rintro ⟨hspatial, rel, hrel, hkind, hnames, hd⟩
    exact ⟨rel, hrel, ⟨hkind, hnames⟩, hd, hspatial⟩

/-- The elements in the lists are the elements. -/
lemma mem_elementsOf_iff (hc : c ∈ m.entityList) : e ∈ m.elementsOf c ↔ m.HasElement c e := by
  rw [elementsOf, List.mem_flatMap]
  constructor
  · rintro ⟨rel, hrel, he⟩
    rw [elementsBy] at he
    split at he
    · rename_i hagg
      rw [Bool.and_eq_true, decide_eq_true_eq, leadsTo_iff hids hc] at hagg
      rw [List.mem_filter, mem_related_iff, Bool.not_eq_true'] at he
      exact .inr ⟨he.2, rel, hrel, hagg.1, hagg.2, he.1⟩
    · split at he
      · rename_i hcont
        rw [Bool.and_eq_true, decide_eq_true_eq, leadsTo_iff hids hc] at hcont
        exact .inl ⟨rel, hrel, hcont.1, hcont.2, mem_related_iff.mp he⟩
      · cases he
  · rintro (⟨rel, hrel, hkind, hnames, he⟩ | ⟨hspatial, rel, hrel, hkind, hnames, he⟩)
    · refine ⟨rel, hrel, ?_⟩
      simp [elementsBy, hkind, (leadsTo_iff hids hc).mpr hnames, mem_related_iff.mpr he]
    · refine ⟨rel, hrel, ?_⟩
      simp [elementsBy, hkind, (leadsTo_iff hids hc).mpr hnames, mem_related_iff.mpr he, hspatial]

end Distinct

/-! ## The nodes of the tree -/

/-- What an aggregation assigns to its whole. -/
lemma assignment?_aggregates (hkind : rel.kind = .relAggregates) :
    m.assignment? rel = (m.follow? rel 4).bind fun whole => if whole.kind.isSpatial then
      some ⟨whole.id, ((m.related rel 5).filter (·.kind.isSpatial)).map (·.id),
        ((m.related rel 5).filter (!·.kind.isSpatial)).map (·.id)⟩ else none := by
  rw [assignment?, hkind]
  simp only [List.partition_eq_filter_filter]
  rfl

/-- What a containment assigns to its container. -/
lemma assignment?_contains (hkind : rel.kind = .relContainedInSpatialStructure) :
    m.assignment? rel = (m.follow? rel 5).bind fun container => if container.kind.isSpatial then
      some ⟨container.id, [], (m.related rel 4).map (·.id)⟩ else none := by
  rw [assignment?, hkind]
  rfl

/-- Other entities assign nothing. -/
lemma assignment?_of_ne (hagg : rel.kind ≠ .relAggregates)
    (hcont : rel.kind ≠ .relContainedInSpatialStructure) : m.assignment? rel = none := by
  rw [assignment?]
  split
  · contradiction
  · contradiction
  · rfl

/-- A number is assigned as a part when a container has it as a part. -/
lemma mem_children_assignments_iff :
    n ∈ m.assignments.flatMap (·.children) ↔ ∃ c d, m.HasPart c d ∧ d.id = n := by
  rw [List.mem_flatMap]
  constructor
  · rintro ⟨a, ha, hn⟩
    obtain ⟨rel, hrel, hassign⟩ := List.mem_filterMap.mp ha
    by_cases hagg : rel.kind = .relAggregates
    · rw [assignment?_aggregates hagg, Option.bind_eq_some_iff] at hassign
      obtain ⟨c, hc, hassign⟩ := hassign
      rw [Option.ite_none_right_eq_some, Option.some.injEq] at hassign
      obtain ⟨hspatial, rfl⟩ := hassign
      obtain ⟨d, hd, rfl⟩ := List.mem_map.mp hn
      obtain ⟨hd, hspatial'⟩ := List.mem_filter.mp hd
      have hnames := follow?_eq_some_iff.mp hc
      exact ⟨c, d, ⟨hspatial, hspatial', rel, hrel, hagg, hnames, mem_related_iff.mp hd⟩, rfl⟩
    · by_cases hcont : rel.kind = .relContainedInSpatialStructure
      · rw [assignment?_contains hcont, Option.bind_eq_some_iff] at hassign
        obtain ⟨c, hc, hassign⟩ := hassign
        rw [Option.ite_none_right_eq_some, Option.some.injEq] at hassign
        obtain ⟨-, rfl⟩ := hassign
        cases hn
      · simp [assignment?_of_ne hagg hcont] at hassign
  · rintro ⟨c, d, ⟨hspatial, hspatial', rel, hrel, hagg, hnames, hlists⟩, rfl⟩
    have hassign := assignment?_aggregates (m := m) hagg
    rw [follow?_eq_some_iff.mpr hnames, Option.bind_some, if_pos hspatial] at hassign
    refine ⟨_, List.mem_filterMap.mpr ⟨rel, hrel, hassign⟩, ?_⟩
    exact List.mem_map_of_mem (List.mem_filter.mpr ⟨mem_related_iff.mpr hlists, hspatial'⟩)

/-- What a relationship assigns to a container. -/
def assigned? (m : LinkedModel) (c rel : LinkedEntity) : Option Assignment :=
  (m.assignment? rel).filter (·.container = c.id)

/-- What is assigned to a container comes from the relationships in file order. -/
lemma flatMap_assignments (get : Assignment → List EntityId) :
    (m.assignments.filter (·.container = c.id)).flatMap get =
      m.entityList.flatMap fun rel => (m.assigned? c rel).toList.flatMap get := by
  have hown : m.assignments.filter (·.container = c.id) = m.entityList.filterMap (m.assigned? c) :=
    List.filter_filterMap
  rw [hown]
  induction m.entityList with
  | nil => rfl
  | cons rel rels ih =>
    rw [List.flatMap_cons, ← ih]
    cases hrel : m.assigned? c rel with
    | none => simp [List.filterMap_cons_none hrel]
    | some a => simp [List.filterMap_cons_some hrel]

section Distinct

variable (hids : (m.entityList.map (·.id)).Nodup) (hc : c ∈ m.containers)
include hids hc

/-- What a relationship assigns to a container is what it gives to it. -/
lemma flatMap_assigned? (rel : LinkedEntity) :
    (m.assigned? c rel).toList.flatMap (·.children) = (m.partsBy c rel).map (·.id) ∧
      (m.assigned? c rel).toList.flatMap (·.elements) = (m.elementsBy c rel).map (·.id) := by
  obtain ⟨hlist, hspatial⟩ := mem_containers_iff.mp hc
  -- whatever has the number of the container is spatial as well
  have hwhole : ∀ i whole, m.follow? rel i = some whole → whole.id = c.id → whole.kind.isSpatial = true := by
    intro i whole hfollow hid
    obtain ⟨h, -, hget⟩ := follow?_eq_some_iff.mp hfollow
    rw [eq_of_id_eq hids (mem_entityList_of_get? hget) hlist hid]
    exact hspatial
  by_cases hagg : rel.kind = .relAggregates
  · rw [assigned?, assignment?_aggregates hagg, partsBy, elementsBy, leadsTo]
    cases hfollow : m.follow? rel 4 with
    | none => simp [hagg]
    | some whole =>
      by_cases hid : whole.id = c.id
      · simp [hagg, hid, hwhole 4 whole hfollow hid, Option.filter]
      · cases whole.kind.isSpatial <;> simp [hagg, hid]
  · by_cases hcont : rel.kind = .relContainedInSpatialStructure
    · rw [assigned?, assignment?_contains hcont, partsBy, elementsBy, leadsTo, leadsTo]
      cases hfollow : m.follow? rel 5 with
      | none => simp [hcont]
      | some whole =>
        by_cases hid : whole.id = c.id
        · simp [hcont, hid, hwhole 5 whole hfollow hid, Option.filter]
        · cases whole.kind.isSpatial <;> simp [hcont, hid]
    · simp [assigned?, assignment?_of_ne hagg hcont, partsBy, elementsBy, hagg, hcont]

/-- The node of a container lists its parts and its elements. -/
lemma nodeOf_assignments :
    (SpatialTree.nodeOf m.assignments c).children = (m.partsOf c).map (·.id) ∧
      (SpatialTree.nodeOf m.assignments c).elements = (m.elementsOf c).map (·.id) := by
  rw [partsOf, elementsOf, List.map_flatMap, List.map_flatMap]
  constructor
  · exact (flatMap_assignments _).trans
      (List.flatMap_congr fun rel _ => (flatMap_assigned? hids hc rel).1)
  · exact (flatMap_assignments _).trans
      (List.flatMap_congr fun rel _ => (flatMap_assigned? hids hc rel).2)

end Distinct

/-! ## The containers under a container -/

section Distinct

variable (hids : (m.entityList.map (·.id)).Nodup)
include hids

/-- Taking out the container with the number of `d` takes out `d`. -/
lemma mem_eraseP_id_iff {unseen : List LinkedEntity} (hsub : unseen.Sublist m.entityList) (hd : d ∈ unseen) :
    c ∈ unseen.eraseP (·.id == d.id) ↔ c ∈ unseen ∧ c ≠ d := by
  obtain ⟨x, before, after, -, hx, hsplit, herase⟩ :=
    List.exists_of_eraseP (p := fun e : LinkedEntity => e.id == d.id) hd (beq_self_eq_true _)
  have hmem : x ∈ unseen := by simp [hsplit]
  obtain rfl : x = d := eq_of_id_eq hids (hsub.subset hmem) (hsub.subset hd) (beq_iff_eq.mp hx)
  have hnodup : unseen.Nodup := hsub.nodup hids.of_map
  rw [hsplit, List.nodup_middle, List.nodup_cons] at hnodup
  rw [herase, hsplit, List.mem_append, List.mem_append, List.mem_cons]
  grind

/-- What is collected is held by the containers that a depth first visit meets, in its order. -/
lemma exists_depthFirst_collect {unseen seen todo : List LinkedEntity} (hsub : unseen.Sublist m.containers)
    (hunseen : ∀ c ∈ m.containers, c ∈ unseen ↔ c ∉ seen) (htodo : ∀ c ∈ todo, c ∈ m.containers) :
    ∃ order, DepthFirst m.partsOf seen todo order ∧
      SpatialTree.collect (unseen.map (SpatialTree.nodeOf m.assignments)) (todo.map (·.id)) =
        order.flatMap fun c => (m.elementsOf c).map (·.id) := by
  generalize hnodes : unseen.map (SpatialTree.nodeOf m.assignments) = nodes
  generalize hnumbers : todo.map (·.id) = numbers
  fun_induction SpatialTree.collect nodes numbers generalizing unseen seen todo with
  | case1 =>
    obtain rfl := List.map_eq_nil_iff.mp hnumbers
    exact ⟨[], .done, rfl⟩
  | case2 nodes n numbers node hfind ih =>
    obtain ⟨c, todo, rfl, rfl, rfl⟩ := List.map_eq_cons_iff.mp hnumbers
    subst hnodes
    have hc : c ∈ m.containers := htodo c List.mem_cons_self
    rw [List.find?_map, Option.map_eq_some_iff] at hfind
    obtain ⟨d, hd, rfl⟩ := hfind
    have hmem := List.mem_of_find?_eq_some hd
    -- only the container itself has its number
    obtain rfl : d = c := eq_of_id_eq hids (mem_entityList_of_container (hsub.subset hmem))
      (mem_entityList_of_container hc) (by simpa [SpatialTree.nodeOf] using List.find?_some hd)
    obtain ⟨hparts, helements⟩ := nodeOf_assignments hids hc
    have hleft : ∀ e ∈ m.containers, e ∈ unseen.eraseP (·.id == d.id) ↔ e ∉ seen ++ [d] := by
      intro e he
      rw [mem_eraseP_id_iff hids (hsub.trans List.filter_sublist) hmem, hunseen e he]
      simp
    have hnext : ∀ e ∈ m.partsOf d ++ todo, e ∈ m.containers := by
      intro e he
      obtain he | he := List.mem_append.mp he
      · exact ((mem_partsOf_iff hids hc).mp he).mem_containers
      · exact htodo e (List.mem_cons_of_mem _ he)
    obtain ⟨order, horder, hcollect⟩ := ih (List.eraseP_sublist.trans hsub) hleft hnext
      (by rw [List.eraseP_map]; rfl) (by rw [List.map_append, hparts])
    obtain ⟨below, after, rfl, hbelow, hafter⟩ := horder.split
    refine ⟨d :: (below ++ after), .visit ((hunseen d hc).mp hmem) hbelow (by simpa using hafter), ?_⟩
    rw [hcollect, helements, List.flatMap_cons]
  | case3 nodes n numbers hfind ih =>
    obtain ⟨c, todo, rfl, rfl, rfl⟩ := List.map_eq_cons_iff.mp hnumbers
    subst hnodes
    have hseen : c ∈ seen := by
      by_contra hseen
      have hc := (hunseen c (htodo c List.mem_cons_self)).mpr hseen
      rw [List.find?_map, Option.map_eq_none_iff, List.find?_eq_none] at hfind
      exact hfind c hc (beq_self_eq_true c.id)
    obtain ⟨order, horder, heq⟩ := ih hsub hunseen (fun d hd => htodo d (List.mem_cons_of_mem _ hd)) rfl rfl
    exact ⟨order, .skip hseen horder, heq⟩

/-- A number leads to the container that has it. -/
lemma container?_eq_some_iff : m.container? n = some c ↔ c ∈ m.containers ∧ c.id = n := by
  constructor
  · intro hfind
    exact ⟨List.mem_of_find?_eq_some hfind, by simpa using List.find?_some hfind⟩
  · rintro ⟨hc, rfl⟩
    obtain ⟨d, hd⟩ := Option.isSome_iff_exists.mp
      (List.find?_isSome.mpr ⟨c, hc, beq_self_eq_true c.id⟩ : (m.container? c.id).isSome)
    have hid : d.id = c.id := by simpa using List.find?_some hd
    rw [container?, hd, eq_of_id_eq hids (mem_entityList_of_container (List.mem_of_find?_eq_some hd))
      (mem_entityList_of_container hc) hid]

/-- Following the listed parts is following the relationships. -/
lemma reflTransGen_partsOf_iff (hc : c ∈ m.containers) :
    ReflTransGen (fun a b => b ∈ m.partsOf a) c d ↔ ReflTransGen m.HasPart c d := by
  constructor
  · intro hreach
    suffices h : ReflTransGen m.HasPart c d ∧ d ∈ m.containers from h.1
    induction hreach with
    | refl => exact ⟨.refl, hc⟩
    | tail _ hpart ih =>
      have hpart := (mem_partsOf_iff hids ih.2).mp hpart
      exact ⟨ih.1.tail hpart, hpart.mem_containers⟩
  · intro hreach
    suffices h : ReflTransGen (fun a b => b ∈ m.partsOf a) c d ∧ d ∈ m.containers from h.1
    induction hreach with
    | refl => exact ⟨.refl, hc⟩
    | tail _ hpart ih => exact ⟨ih.1.tail ((mem_partsOf_iff hids ih.2).mpr hpart), hpart.mem_containers⟩

/-- To lie under a number is to be reached from its container through parts. -/
lemma under_iff : m.Under n c ↔
    ∃ top ∈ (m.container? n).toList, ReflTransGen (fun a b => b ∈ m.partsOf a) top c := by
  simp only [Option.mem_toList, container?_eq_some_iff hids, Under]
  constructor
  · rintro ⟨top, htop, rfl, hspatial, hreach⟩
    have hmem := mem_containers_iff.mpr ⟨htop, hspatial⟩
    exact ⟨top, ⟨hmem, rfl⟩, (reflTransGen_partsOf_iff hids hmem).mpr hreach⟩
  · rintro ⟨top, ⟨hmem, rfl⟩, hreach⟩
    obtain ⟨htop, hspatial⟩ := mem_containers_iff.mp hmem
    exact ⟨top, htop, rfl, hspatial, (reflTransGen_partsOf_iff hids hmem).mp hreach⟩

/-- The elements under a container are those of the containers that a depth first visit meets. -/
lemma exists_depthFirst (n : EntityId) :
    ∃ order, DepthFirst m.partsOf [] (m.container? n).toList order ∧
      (SpatialTree.build m).elementsUnder n = order.flatMap fun c => (m.elementsOf c).map (·.id) := by
  cases hn : m.container? n with
  | none =>
    refine ⟨[], .done, ?_⟩
    have hnone : (SpatialTree.build m).node? n = none := by
      rw [SpatialTree.node?, SpatialTree.build, List.find?_map, Option.map_eq_none_iff]
      exact hn
    rw [SpatialTree.elementsUnder, SpatialTree.collect]
    split
    · rename_i node hnode
      rw [SpatialTree.node?, hnode] at hnone
      cases hnone
    · rw [SpatialTree.collect, List.flatMap_nil]
  | some c =>
    obtain ⟨hc, rfl⟩ := (container?_eq_some_iff hids).mp hn
    have hunseen : ∀ d ∈ m.containers, d ∈ m.containers ↔ d ∉ ([] : List LinkedEntity) := by
      intro d hd
      exact iff_of_true hd List.not_mem_nil
    exact exists_depthFirst_collect hids (.refl m.containers) hunseen (by simpa using hc)

/-- The number of an entity is under a container exactly when the entity is held under it. -/
lemma mem_elementsUnder_iff :
    n' ∈ (SpatialTree.build m).elementsUnder n ↔ ∃ e, m.HeldUnder n e ∧ e.id = n' := by
  obtain ⟨order, horder, helements⟩ := exists_depthFirst hids n
  rw [helements, List.mem_flatMap]
  constructor
  · rintro ⟨c, hc, hn⟩
    obtain ⟨e, he, rfl⟩ := List.mem_map.mp hn
    have hunder : m.Under n c := (under_iff hids).mpr (horder.mem_iff.mp hc)
    have hc := mem_entityList_of_container hunder.mem_containers
    exact ⟨e, ⟨c, hunder, (mem_elementsOf_iff hids hc).mp he⟩, rfl⟩
  · rintro ⟨e, ⟨c, hunder, he⟩, rfl⟩
    have hc := mem_entityList_of_container hunder.mem_containers
    exact ⟨c, horder.mem_iff.mpr ((under_iff hids).mp hunder),
      List.mem_map_of_mem ((mem_elementsOf_iff hids hc).mpr he)⟩

/-- The entities within a container are those that are held under it. -/
lemma mem_select_within_iff : (e, h) ∈ m.select (SpatialTree.build m) [.within n] ↔
    m.get? h = some e ∧ m.HeldUnder n e := by
  rw [select, List.mem_filter, mem_placed_iff]
  simp only [List.map_cons, List.map_nil, Condition.test, List.all_cons, List.all_nil, Bool.and_true,
    List.contains_iff_mem, mem_elementsUnder_iff hids]
  refine and_congr_right fun hget => ⟨?_, fun hheld => ⟨e, hheld, rfl⟩⟩
  rintro ⟨d, ⟨c, hunder, hd⟩, hid⟩
  rw [← eq_of_id_eq hids hd.mem_entityList (mem_entityList_of_get? hget) hid]
  exact ⟨c, hunder, hd⟩

end Distinct

/-- The roots are the containers that are no part of a container, in file order. -/
lemma roots_build : (SpatialTree.build m).roots =
    (m.containers.map (·.id)).filter (!(m.assignments.flatMap (·.children)).contains ·) := by
  rw [SpatialTree.build, List.map_map]
  rfl

/-- Roots are the containers that are part of none. -/
lemma mem_roots_build_iff (hids : (m.entityList.map (·.id)).Nodup) : n ∈ (SpatialTree.build m).roots ↔
    ∃ e ∈ m.entityList, e.id = n ∧ e.kind.isSpatial = true ∧ ∀ c, ¬ m.HasPart c e := by
  rw [roots_build, List.mem_filter, List.mem_map, Bool.not_eq_true', ← Bool.not_eq_true,
    List.contains_iff_mem, mem_children_assignments_iff]
  constructor
  · rintro ⟨⟨e, he, rfl⟩, hnone⟩
    obtain ⟨hlist, hspatial⟩ := mem_containers_iff.mp he
    exact ⟨e, hlist, rfl, hspatial, fun c hpart => hnone ⟨c, e, hpart, rfl⟩⟩
  · rintro ⟨e, hlist, rfl, hspatial, hnone⟩
    refine ⟨⟨e, mem_containers_iff.mpr ⟨hlist, hspatial⟩, rfl⟩, ?_⟩
    rintro ⟨c, d, hpart, hid⟩
    rw [eq_of_id_eq hids (mem_entityList_of_container hpart.mem_containers) hlist hid] at hpart
    exact hnone c hpart

end LinkedModel

/-- The tree says what the relationships of the model say about containers. -/
structure SpatialTree.Faithful (tree : SpatialTree) (m : LinkedModel) : Prop where
  /-- The roots stand in file order, and are the containers that no container has as a part. -/
  roots_sublist : tree.roots.Sublist (m.entityList.map (·.id))
  mem_roots_iff : ∀ n, n ∈ tree.roots ↔
    ∃ e ∈ m.entityList, e.id = n ∧ e.kind.isSpatial = true ∧ ∀ c, ¬ m.HasPart c e
  /-- Under a container are the numbers of what it or a container below it holds. -/
  mem_elementsUnder_iff : ∀ n n', n' ∈ tree.elementsUnder n ↔ ∃ e, m.HeldUnder n e ∧ e.id = n'
  /-- They stand in the order of a depth first visit, which meets every container under it once. -/
  visit : ∀ n, ∃ order, DepthFirst m.partsOf [] (m.container? n).toList order ∧
    order.Nodup ∧ (∀ c, c ∈ order ↔ m.Under n c) ∧
    tree.elementsUnder n = order.flatMap fun c => (m.elementsOf c).map (·.id)
  /-- The parts and the elements that a visit goes through are those of the relationships. -/
  mem_partsOf_iff : ∀ n c d, m.Under n c → (d ∈ m.partsOf c ↔ m.HasPart c d)
  mem_elementsOf_iff : ∀ n c e, m.Under n c → (e ∈ m.elementsOf c ↔ m.HasElement c e)
  /-- A query for what is within a container gives what is held under it, once and in file order. -/
  within_sublist : ∀ n, (m.select tree [.within n]).Sublist m.placed
  within_nodup : ∀ n, (m.selectIds tree [.within n]).Nodup
  mem_within_iff : ∀ n e h, (e, h) ∈ m.select tree [.within n] ↔ m.get? h = some e ∧ m.HeldUnder n e

namespace ExchangeFile

open LinkedModel

/-- The spatial tree of a linked file is faithful to its relationships, even where they repeat each other or
lead in circles. The table of every file that is read is sound (`ExchangeFile.sound_parse`). -/
theorem build_link_faithful (file : ExchangeFile) (hsound : file.table.Sound) :
    (SpatialTree.build file.link).Faithful file.link := by
  have hids : (file.link.entityList.map (·.id)).Nodup := by
    rw [link_ids]
    exact hsound.nodup
  refine ⟨?_, fun n => mem_roots_build_iff hids, fun n n' => mem_elementsUnder_iff hids, ?_, ?_, ?_, ?_, ?_,
    fun n e h => mem_select_within_iff hids⟩
  · rw [roots_build]
    exact List.filter_sublist.trans (List.filter_sublist.map _)
  · intro n
    obtain ⟨order, horder, helements⟩ := exists_depthFirst hids n
    exact ⟨order, horder, horder.nodup.1, fun c => horder.mem_iff.trans (under_iff hids).symm, helements⟩
  · intro n c d hunder
    exact mem_partsOf_iff hids hunder.mem_containers
  · intro n c e hunder
    exact mem_elementsOf_iff hids (mem_entityList_of_container hunder.mem_containers)
  · intro n
    exact List.filter_sublist
  · intro n
    have hplaced : file.link.placed.map (·.1.id) = file.link.entityList.map (·.id) := by
      rw [placed, ← List.zipIdx_map_fst 0 file.link.entityList, List.map_map, List.zipIdx_map_fst]
      rfl
    exact (List.filter_sublist.map _).nodup (hplaced ▸ hids)

/-- A building and a storey that are parts of each other. Two relationships give the wall to the storey, and
one of them gives it as a part, next to a beam and something that is not in the file. -/
def loopedFile : ExchangeFile :=
  let relates (args : List Value) : List Value := .omitted :: .omitted :: .omitted :: .omitted :: args
  ⟨{}, [⟨9, .relAggregates, relates [.ref 2, .list [.ref 1, .ref 3, .ref 5, .ref 4]]⟩,
      ⟨1, .building, []⟩, ⟨2, .buildingStorey, []⟩, ⟨3, .wall, []⟩, ⟨4, .beam, []⟩,
      ⟨8, .relAggregates, relates [.ref 1, .list [.ref 2, .ref 2]]⟩,
      ⟨7, .relContainedInSpatialStructure, relates [.list [.ref 3], .ref 2]⟩].foldl EntityTable.push {},
    .empty 50⟩

/-- The tree is faithful, although two containers are parts of each other. -/
theorem build_link_faithful_loopedFile :
    loopedFile.table.Sound ∧ (SpatialTree.build loopedFile.link).Faithful loopedFile.link := by
  have hsound : loopedFile.table.Sound := EntityTable.sound_empty.pushAll _ (by decide)
  exact ⟨hsound, build_link_faithful loopedFile hsound⟩

end ExchangeFile

end BuildingModel
