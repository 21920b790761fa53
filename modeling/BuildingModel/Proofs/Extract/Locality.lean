import BuildingModel.Extract.Product
import BuildingModel.Linked.LengthUnit
import BuildingModel.Proofs.Linked.Part
import BuildingModel.Proofs.Shape.PlacementChain

/-!
# What a shape depends on

The shape of an entity is made from the entity and from what can be reached from it by links. In a model and
in a larger one that it is part of, all readers of shapes therefore give the same answers for the entities of
the part: those of placements, curves, profiles and items, the methods that make meshes
(`ShapeMethod.local_of_mem_all`), the shape of a product (`PartOf.placedShape_eq`), and the length unit, if
both models have the same project.
-/

namespace BuildingModel

section Readers

variable {ε α β : Type}

/-- Readers agree if their first steps do, and the rest agrees on what the first step gives. -/
lemma bind_congr_of_ok {x x' : Except ε α} {f f' : α → Except ε β} (hx : x' = x)
    (hf : ∀ a, x = .ok a → f' a = f a) : (x' >>= f') = (x >>= f) := by
  subst hx
  cases x' with
  | error e => rfl
  | ok a => exact hf a rfl

/-- Reading a list agrees if reading each of its members does. -/
lemma mapM_congr {f f' : α → Except ε β} {xs : List α} (hf : ∀ a ∈ xs, f' a = f a) :
    xs.mapM f' = xs.mapM f := by
  induction xs with
  | nil => rfl
  | cons a xs ih =>
    rw [List.mapM_cons, List.mapM_cons, hf a List.mem_cons_self,
      ih fun b hb => hf b (List.mem_cons_of_mem _ hb)]

/-- Loops over a list agree if their steps agree on each of its members. -/
lemma foldlM_congr {f f' : β → α → Except ε β} {xs : List α} (hf : ∀ b, ∀ a ∈ xs, f' b a = f b a)
    (init : β) : xs.foldlM f' init = xs.foldlM f init := by
  induction xs generalizing init with
  | nil => rfl
  | cons a xs ih =>
    rw [List.foldlM_cons, List.foldlM_cons, hf init a List.mem_cons_self]
    exact bind_congr_of_ok rfl fun b _ => ih (fun b c hc => hf b c (List.mem_cons_of_mem _ hc)) b

end Readers

namespace LinkedModel

variable {m m' : LinkedModel} {e t : LinkedEntity} {i : Nat} {items : List LinkedValue}

/-- The links in a list that an entity must have are links of the entity. -/
lemma Holds.requiredList (he : m.Holds e.links) (hitems : e.requiredList i = .ok items) :
    m.Holds (LinkedValue.linksOf items) := by
  have hlist := he.list? (i := i)
  rw [LinkedEntity.requiredList] at hitems
  split at hitems
  · rename_i found hfound
    cases hitems
    rw [hfound] at hlist
    exact hlist
  · cases hitems

section Part

variable (hpart : m.PartOf m')
include hpart

/-- What an entity must link to has its links in the part. -/
lemma PartOf.holds_of_required (ht : m.required e i = .ok t) : m.Holds t.links := by
  rw [required] at ht
  split at ht
  · rename_i target htarget
    cases ht
    exact hpart.holds_of_follow? htarget
  · cases ht

variable (he : m.Holds e.links)
include he

/-- A list of links leads to the same entities in both models. -/
lemma PartOf.linkedList_eq (i : Nat) : m'.linkedList e i = m.linkedList e i :=
  hpart.followAll_eq he.list?

/-- A link that an entity must have leads to the same entity in both models. -/
lemma PartOf.required_eq (i : Nat) : m'.required e i = m.required e i := by
  rw [required, required, hpart.follow?_eq he]

/-! ## Placements -/

/-- A direction that may be missing. -/
lemma PartOf.directionOr_eq (i : Nat) (default : Vec3 Float) :
    m'.directionOr e i default = m.directionOr e i default := by
  rw [directionOr, directionOr, hpart.follow?_eq he]

/-- The origin of a frame. -/
lemma PartOf.frameOrigin_eq : m'.frameOrigin e = m.frameOrigin e := by
  rw [frameOrigin, frameOrigin, hpart.follow?_eq he]

/-- A frame in space. -/
lemma PartOf.frame3_eq : m'.frame3 e = m.frame3 e := by
  simp only [frame3, hpart.frameOrigin_eq he, hpart.directionOr_eq he]

/-- A frame in the plane. -/
lemma PartOf.frame2_eq : m'.frame2 e = m.frame2 e := by
  simp only [frame2, hpart.frameOrigin_eq he, hpart.directionOr_eq he]

/-- The frame of a placement relative to the one around it. -/
lemma PartOf.relativePlacement_eq : m'.relativePlacement e = m.relativePlacement e := by
  rw [relativePlacement, relativePlacement, hpart.follow?_eq he]
  cases haxis : m.follow? e 1 with
  | none => rfl
  | some axis =>
    have hin := hpart.holds_of_follow? haxis
    simp only [hpart.frame3_eq hin, hpart.frame2_eq hin]

omit he in
/-- A chain of placements stays in the part. -/
lemma PartOf.placementWithin_eq (start : EntityId) (left : Nat) (he : m.Holds e.links) :
    m'.placementWithin start left e = m.placementWithin start left e := by
  induction left generalizing e with
  | zero => rfl
  | succ left ih =>
    rw [placementWithin, placementWithin, hpart.relativePlacement_eq he, hpart.follow?_eq he]
    cases hparent : m.follow? e 0 with
    | none => rfl
    | some parent => simp only [ih (hpart.holds_of_follow? hparent)]

/-- The place of a placement in the world is the same in both models. -/
lemma PartOf.localPlacement_eq : m'.localPlacement e = m.localPlacement e := by
  rw [localPlacement_eq_placementWithin, localPlacement_eq_placementWithin]
  exact hpart.placementWithin_eq e.id placementLimit he

/-! ## Curves and profiles -/

omit he in
/-- The points that a list links to. -/
lemma PartOf.linkedPoints_eq (hitems : m.Holds (LinkedValue.linksOf items)) :
    m'.linkedPoints items = m.linkedPoints items := by
  rw [linkedPoints, linkedPoints, hpart.followAll_eq hitems]

/-- The points of a curve. -/
lemma PartOf.curvePoints_eq : m'.curvePoints e = m.curvePoints e := by
  rw [curvePoints, curvePoints, hpart.required_eq he]
  split
  · exact bind_congr_of_ok rfl fun items hitems => hpart.linkedPoints_eq (he.requiredList hitems)
  · rfl
  · rfl
  · rfl

/-- The area inside a curve. -/
lemma PartOf.areaInside_eq : m'.areaInside e = m.areaInside e := by
  rw [areaInside, areaInside]
  refine bind_congr_of_ok (hpart.required_eq he 2) fun curve hcurve => ?_
  rw [hpart.curvePoints_eq (hpart.holds_of_required hcurve)]

/-- A profile at its position. -/
lemma PartOf.placeProfile_eq (p : Profile Float) : m'.placeProfile e p = m.placeProfile e p := by
  rw [placeProfile, placeProfile, hpart.follow?_eq he]
  cases hposition : m.follow? e 2 with
  | none => rfl
  | some position => simp only [hpart.frame2_eq (hpart.holds_of_follow? hposition)]

/-- The profile of an area. -/
lemma PartOf.profile_eq : m'.profile e = m.profile e := by
  rw [profile, profile, hpart.linkedList_eq he]
  simp only [hpart.placeProfile_eq he, hpart.areaInside_eq he]
  split
  · rfl
  · rfl
  · rfl
  · refine bind_congr_of_ok rfl fun area _ => foldlM_congr (fun p curve hcurve => ?_) area
    rw [hpart.curvePoints_eq (hpart.holds_of_followAll hcurve)]
  · rfl

/-! ## Items -/

/-- The mesh of an extruded area. -/
lemma PartOf.extrusionMesh_eq (clip : Clipper Float) : m'.extrusionMesh clip e = m.extrusionMesh clip e := by
  rw [extrusionMesh, extrusionMesh, hpart.follow?_eq he, hpart.follow?_eq he]
  refine bind_congr_of_ok (hpart.required_eq he 0) fun area harea => ?_
  refine bind_congr_of_ok (hpart.profile_eq (hpart.holds_of_required harea)) fun profile _ => ?_
  refine bind_congr_of_ok ?_ fun position _ => rfl
  cases hposition : m.follow? e 1 with
  | none => rfl
  | some position => simp only [Option.mapM_some, hpart.frame3_eq (hpart.holds_of_follow? hposition)]

/-- The mesh of a set of triangles. -/
lemma PartOf.faceSetMesh_eq : m'.faceSetMesh e = m.faceSetMesh e := by
  rw [faceSetMesh, faceSetMesh, hpart.required_eq he]

/-- The mesh of a curve. -/
lemma PartOf.curveMesh_eq : m'.curveMesh e = m.curveMesh e := by
  rw [curveMesh, curveMesh, hpart.curvePoints_eq he]

/-- The points of the loop of a bound. -/
lemma PartOf.boundPoints_eq : m'.boundPoints e = m.boundPoints e := by
  rw [boundPoints, boundPoints]
  refine bind_congr_of_ok (hpart.required_eq he 0) fun ring hring => ?_
  by_cases hkind : ring.kind = .polyLoop
  · simp only [hkind, ne_eq, not_true_eq_false, if_false]
    refine bind_congr_of_ok rfl fun items hitems => ?_
    rw [hpart.linkedPoints_eq ((hpart.holds_of_required hring).requiredList hitems)]
  · simp only [hkind, ne_eq, not_false_eq_true, if_true]
    rfl

/-- The loops of a face. -/
lemma PartOf.faceLoops_eq : m'.faceLoops e = m.faceLoops e := by
  rw [faceLoops, faceLoops, hpart.linkedList_eq he]
  refine bind_congr_of_ok (mapM_congr fun bound hbound => ?_) fun loops _ => rfl
  exact hpart.boundPoints_eq (hpart.holds_of_followAll hbound)

/-- The faces of a shell. -/
lemma PartOf.shellFaces_eq : m'.shellFaces e = m.shellFaces e := by
  have hfaces : (m'.linkedList e 0).mapM m'.faceLoops = (m.linkedList e 0).mapM m.faceLoops := by
    rw [hpart.linkedList_eq he]
    exact mapM_congr fun face hface => hpart.faceLoops_eq (hpart.holds_of_followAll hface)
  simp only [shellFaces, hfaces]

/-- All faces of an item. -/
lemma PartOf.faces_eq : m'.faces e = m.faces e := by
  rw [faces, faces, hpart.linkedList_eq he, hpart.faceLoops_eq he, hpart.boundPoints_eq he]
  split
  · refine bind_congr_of_ok (hpart.required_eq he 0) fun shell hshell => ?_
    exact hpart.shellFaces_eq (hpart.holds_of_required hshell)
  · refine bind_congr_of_ok (mapM_congr fun shell hshell => ?_) fun _ _ => rfl
    exact hpart.shellFaces_eq (hpart.holds_of_followAll hshell)
  · rfl
  · rfl
  · rfl
  · rfl

/-- The mesh of an item of plane faces. -/
lemma PartOf.facesMesh_eq (clip : Clipper Float) : m'.facesMesh clip e = m.facesMesh clip e := by
  rw [facesMesh, facesMesh, hpart.faces_eq he]

end Part

end LinkedModel

/-- A method that is found in a table is one of its entries. -/
lemma MethodTable.mem_entries_of_method? {table : MethodTable} {kind : Kind} {method : ShapeMethod}
    (h : table.method? kind = some method) : (kind, method) ∈ table.entries := by
  obtain ⟨before, after, hentries, -⟩ := List.lookup_eq_some_iff.mp h
  rw [hentries]
  exact List.mem_append_right _ List.mem_cons_self

/-- A method makes the mesh of an item from what can be reached from the item by links. -/
def ShapeMethod.Local (method : ShapeMethod) : Prop :=
  ∀ m m' : LinkedModel, m.PartOf m' → ∀ item : LinkedEntity, m.Holds item.links →
    method.mesh m' item = method.mesh m item

/-- Every method of a table is one of this library, with whatever clipper, or local as these are. -/
def MethodTable.Local (table : MethodTable) : Prop :=
  ∀ entry ∈ table.entries, (∃ clip, entry.2 ∈ ShapeMethod.all clip) ∨ entry.2.Local

/-- The methods of this library are local, with whatever clipper. -/
lemma ShapeMethod.local_of_mem_all {method : ShapeMethod} {clip : Clipper Float} (hmethod : method ∈ all clip) :
    method.Local := by
  intro m m' hpart item hitem
  simp only [all, List.mem_cons, List.not_mem_nil, or_false] at hmethod
  rcases hmethod with rfl | rfl | rfl | rfl
  · exact hpart.extrusionMesh_eq hitem clip
  · exact hpart.faceSetMesh_eq hitem
  · exact hpart.facesMesh_eq hitem clip
  · exact hpart.curveMesh_eq hitem

/-- Registering such a method keeps a table local. -/
lemma MethodTable.Local.register {table : MethodTable} {method : ShapeMethod} (htable : table.Local)
    (hmethod : (∃ clip, method ∈ ShapeMethod.all clip) ∨ method.Local) : (table.register method).Local := by
  intro entry hentry
  rcases List.mem_append.mp hentry with hnew | hold
  · obtain ⟨kind, -, rfl⟩ := List.mem_map.mp hnew
    exact hmethod
  · exact htable entry (List.mem_filter.mp hold).1

/-- A table of methods of this library is local. -/
lemma MethodTable.local_ofMethods {methods : List ShapeMethod} {clip : Clipper Float}
    (hmethods : methods ⊆ ShapeMethod.all clip) : (ofMethods methods).Local := by
  have hall : ∀ table : MethodTable, table.Local → (methods.foldl register table).Local := by
    induction methods with
    | nil => exact fun table htable => htable
    | cons method methods ih =>
      intro table htable
      apply ih (List.subset_of_cons_subset hmethods)
      exact htable.register (.inl ⟨clip, hmethods List.mem_cons_self⟩)
  exact hall empty fun entry hentry => by cases hentry

namespace LinkedModel

variable {m m' : LinkedModel} {e : LinkedEntity} {table : MethodTable}

section Product

variable (hpart : m.PartOf m') (htable : table.Local)
include hpart htable

/-- A table of local methods makes the same mesh of an item in both models. -/
lemma PartOf.process_eq (he : m.Holds e.links) : table.process m' e = table.process m e := by
  rw [MethodTable.process, MethodTable.process]
  cases hmethod : table.method? e.kind with
  | none => rfl
  | some method =>
    have hlocal : method.Local := by
      rcases htable _ (MethodTable.mem_entries_of_method? hmethod) with ⟨clip, hall⟩ | hlocal
      · exact ShapeMethod.local_of_mem_all hall
      · exact hlocal
    simp only [hlocal m m' hpart e he]

/-- The items of a representation give the same in both models. -/
lemma PartOf.gather_eq (he : m.Holds e.links) (error : Option ShapeError) :
    m'.gather table e error = m.gather table e error := by
  rw [gather, gather, hpart.linkedList_eq he]
  refine foldlM_congr (fun g item hitem => ?_) _
  rw [Gathered.add, Gathered.add, hpart.process_eq htable (hpart.holds_of_followAll hitem)]

/-- The first representation that gives a mesh is the same in both models, with the same mesh. -/
lemma PartOf.representedMesh_eq (product : EntityId) (representations : List LinkedEntity)
    (hrepresentations : ∀ r ∈ representations, m.Holds r.links) (error : Option ShapeError) :
    m'.representedMesh table product representations error =
      m.representedMesh table product representations error := by
  -- The error of an earlier representation is handed on to the next.
  induction representations generalizing error with
  | nil => rfl
  | cons r rest ih =>
    have hgather := hpart.gather_eq htable (hrepresentations r List.mem_cons_self) error
    simp only [representedMesh, hgather,
      ih fun t ht => hrepresentations t (List.mem_cons_of_mem _ ht)]

/-- The mesh of a product. -/
lemma PartOf.productMesh_eq (he : m.Holds e.links) : m'.productMesh table e = m.productMesh table e := by
  rw [productMesh, productMesh]
  refine bind_congr_of_ok (hpart.required_eq he 6) fun shape hshape => ?_
  have hlist := hpart.linkedList_eq (hpart.holds_of_required hshape) 2
  have hsame : m'.representations shape = m.representations shape := by
    rw [representations, representations, hlist]
  rw [hsame]
  refine bind_congr_of_ok rfl fun _ _ => hpart.representedMesh_eq htable e.id _ ?_ none
  intro r hr
  have hmem : r ∈ m.linkedList shape 2 := by
    simp only [representations, List.mem_append, List.mem_filter] at hr
    rcases hr with hr | hr
    · exact hr.1.1
    · exact hr.1.1
  exact hpart.holds_of_followAll hmem

/-- The shape of an entity of the part is the same in both models. -/
theorem PartOf.placedShape_eq (he : m.Holds e.links) (unit : Float) (rule : ExtractionRule) :
    m'.placedShape table unit e rule = m.placedShape table unit e rule := by
  have hplacement : m'.productPlacement e = m.productPlacement e := by
    rw [productPlacement, productPlacement, hpart.follow?_eq he]
    cases hplace : m.follow? e 5 with
    | none => rfl
    | some placement => exact hpart.localPlacement_eq (hpart.holds_of_follow? hplace)
  have hmesh : m'.placedMesh table rule.strategy e = m.placedMesh table rule.strategy e := by
    cases rule.strategy with
    | item => simp only [placedMesh, hpart.process_eq htable he]
    | product => simp only [placedMesh, hplacement, hpart.productMesh_eq htable he]
  rw [placedShape, placedShape, hmesh]

end Product

/-! ## The length unit -/

section Unit

variable (hpart : m.PartOf m')
include hpart

/-- The factor of a unit along its chain of conversions. -/
lemma PartOf.unitFactor?_eq (links : Nat) (he : m.Holds e.links) :
    m'.unitFactor? links e = m.unitFactor? links e := by
  induction links generalizing e with
  | zero => rfl
  | succ links ih =>
    rw [unitFactor?, unitFactor?, hpart.follow?_eq he]
    split
    · rfl
    · split
      · rfl
      · refine Option.bind_congr fun measure hmeasure => ?_
        have hin := hpart.holds_of_follow? hmeasure
        have hbase : (m'.follow? measure 1).bind (m'.unitFactor? links) =
            (m.follow? measure 1).bind (m.unitFactor? links) := by
          rw [hpart.follow?_eq hin]
          exact Option.bind_congr fun unit hunit => ih (hpart.holds_of_follow? hunit)
        rw [hbase]
      · rfl

/-- The first entity of a kind has its links in the part. -/
lemma PartOf.holds_of_firstOfKind? {kind : Kind} (hfirst : m.firstOfKind? kind = some e) :
    m.Holds e.links := by
  have hmem : e ∈ m.entityList := List.mem_of_find?_eq_some hfirst
  obtain ⟨h, hh⟩ := List.getElem?_of_mem hmem
  rw [entityList, Array.getElem?_toList] at hh
  exact hpart.closed h e hh

/-- The length unit is the same if the first project is. -/
theorem PartOf.lengthUnit_eq (hproject : m'.firstOfKind? .project = m.firstOfKind? .project) :
    m'.lengthUnit = m.lengthUnit := by
  have hassignment : (m'.firstOfKind? .project).bind (m'.follow? · 8) =
      (m.firstOfKind? .project).bind (m.follow? · 8) := by
    rw [hproject]
    exact Option.bind_congr fun project hfound => hpart.follow?_eq (hpart.holds_of_firstOfKind? hfound) 8
  have hunits : m'.assignedUnits = m.assignedUnits := by
    rw [assignedUnits, assignedUnits, hassignment]
    cases hfound : (m.firstOfKind? .project).bind (m.follow? · 8) with
    | none => rfl
    | some assignment =>
      obtain ⟨project, -, hfollow⟩ := Option.bind_eq_some_iff.mp hfound
      simp only [hpart.followAll_eq (hpart.holds_of_follow? hfollow).list?]
  have hfactors : m.assignedUnits.filterMap (m'.unitFactor? unitChainLimit) =
      m.assignedUnits.filterMap (m.unitFactor? unitChainLimit) := by
    apply List.filterMap_congr
    intro unit hunit
    rw [assignedUnits] at hunit
    split at hunit
    · split at hunit
      · exact hpart.unitFactor?_eq _ (hpart.holds_of_followAll hunit)
      · cases hunit
    · cases hunit
  rw [lengthUnit, lengthUnit, hunits, ← List.head?_filterMap, ← List.head?_filterMap, hfactors]

end Unit

end LinkedModel

end BuildingModel
