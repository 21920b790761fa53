import BuildingModel.Proofs.Extract.SafeShapes
import BuildingModel.Proofs.Linked.Part
import BuildingModel.Proofs.Shape.IndexedCurve

/-!
# What can overflow

The place of a number in a curve is computed in 64 bits before it is looked up, and overflows for the least number
(`LinkedEntity.NamesLeast`). Nothing else that is read or made for a shape overflows: what fails otherwise fails with
an error that says what is wrong. So in a model without such curves the mesh of every entity is made or refused
(`LinkedModel.Tame.calm_placedMesh`), and a run is not cut short.
-/

namespace BuildingModel

open Exchange

/-- Something is made or refused, but does not overflow. -/
def Calm {β : Type} (x : Except ShapeError β) : Prop := x ≠ .error .overflow

namespace Calm

variable {β γ : Type}

/-- What is made has not overflowed. -/
lemma ok (b : β) : Calm (.ok b) := by simp [Calm]

/-- Neither has what is refused with another error. -/
lemma error {e : ShapeError} (he : e ≠ .overflow) : Calm (.error e : Except ShapeError β) := by
  simpa [Calm] using he

/-- Two steps do not overflow if neither of them does. -/
lemma bind {x : Except ShapeError β} {f : β → Except ShapeError γ} (hx : Calm x)
    (hf : ∀ b, x = .ok b → Calm (f b)) : Calm (x >>= f) := by
  cases x with
  | error e => exact error fun he => hx (congrArg _ he)
  | ok b => exact hf b rfl

/-- A list is read without overflow if each of its members is. -/
lemma mapM {f : β → Except ShapeError γ} {xs : List β} (hf : ∀ b ∈ xs, Calm (f b)) : Calm (xs.mapM f) := by
  induction xs with
  | nil => exact ok []
  | cons b xs ih =>
    rw [List.mapM_cons]
    refine (hf b List.mem_cons_self).bind fun c _ => ?_
    exact (ih fun d hd => hf d (List.mem_cons_of_mem _ hd)).bind fun cs _ => ok (c :: cs)

/-- A loop does not overflow if none of its steps does. -/
lemma foldlM {f : γ → β → Except ShapeError γ} {xs : List β} (hf : ∀ c, ∀ b ∈ xs, Calm (f c b)) (c : γ) :
    Calm (xs.foldlM f c) := by
  induction xs generalizing c with
  | nil => exact ok c
  | cons b xs ih =>
    rw [List.foldlM_cons]
    exact (hf c b List.mem_cons_self).bind fun d _ => ih (fun c b hb => hf c b (List.mem_cons_of_mem _ hb)) d

/-- What may be missing is read without overflow if it is when it is there. -/
lemma optionMapM {f : β → Except ShapeError γ} {x : Option β} (hf : ∀ b, x = some b → Calm (f b)) :
    Calm (x.mapM f) := by
  cases x with
  | none => exact ok none
  | some b => exact (hf b rfl).bind fun c _ => ok (some c)

end Calm

/-! ## Entities and placements -/

namespace LinkedEntity

variable (e : LinkedEntity) (i : Nat)

/-- Expecting a kind does not overflow. -/
lemma calm_expectKind (kind : Kind) : Calm (e.expectKind kind) := by
  rw [expectKind]
  split
  · exact .ok ()
  · exact .error (by simp)

/-- Nor does looking for a list. -/
lemma calm_requiredList : Calm (e.requiredList i) := by
  rw [requiredList]
  split
  · exact .ok _
  · exact .error (by simp)

/-- Nor does looking for a number. -/
lemma calm_requiredNumber : Calm (e.requiredNumber i) := by
  rw [requiredNumber]
  split
  · exact .ok _
  · exact .error (by simp)

/-- Points are read without overflow. -/
lemma calm_cartesianPoint : Calm e.cartesianPoint :=
  (e.calm_expectKind _).bind fun _ _ => (e.calm_requiredList 0).bind fun _ _ => .ok _

/-- So are directions, also those of length zero. -/
lemma calm_direction : Calm e.direction := by
  refine (e.calm_expectKind _).bind fun _ _ => (e.calm_requiredList 0).bind fun items _ => ?_
  split
  · exact .ok _
  · exact .error (by simp)

/-- So are lists of points. -/
lemma calm_pointList : Calm e.pointList := by
  rw [pointList]
  split
  · exact .error (by simp)
  · exact (e.calm_requiredList 0).bind fun _ _ => .ok _

end LinkedEntity

namespace LinkedModel

variable (m : LinkedModel) (e : LinkedEntity)

/-- A link is followed or refused. -/
lemma calm_required (i : Nat) : Calm (m.required e i) := by
  rw [required]
  split
  · exact .ok _
  · exact .error (by simp)

/-- The points of a list are read or refused. -/
lemma calm_linkedPoints (items : List LinkedValue) : Calm (m.linkedPoints items) :=
  .mapM fun p _ => p.calm_cartesianPoint

/-- So is a direction that may be missing. -/
lemma calm_directionOr (i : Nat) (default : Vec3 Float) : Calm (m.directionOr e i default) := by
  rw [directionOr]
  split
  · exact LinkedEntity.calm_direction _
  · exact .ok _

/-- So is the origin of a frame. -/
lemma calm_frameOrigin : Calm (m.frameOrigin e) := by
  rw [frameOrigin]
  split
  · exact LinkedEntity.calm_cartesianPoint _
  · exact .ok _

/-- So is a frame in space. -/
lemma calm_frame3 : Calm (m.frame3 e) :=
  (e.calm_expectKind _).bind fun _ _ => (m.calm_frameOrigin e).bind fun _ _ =>
    (m.calm_directionOr e 1 _).bind fun _ _ => (m.calm_directionOr e 2 _).bind fun _ _ => .ok _

/-- So is a frame in the plane. -/
lemma calm_frame2 : Calm (m.frame2 e) :=
  (e.calm_expectKind _).bind fun _ _ => (m.calm_frameOrigin e).bind fun _ _ =>
    (m.calm_directionOr e 1 _).bind fun _ _ => .ok _

/-- So is the frame of a placement. -/
lemma calm_relativePlacement : Calm (m.relativePlacement e) := by
  rw [relativePlacement]
  split
  · exact .ok _
  · split
    · exact m.calm_frame3 _
    · exact (m.calm_frame2 _).bind fun _ _ => .ok _
    · exact .ok _

/-- The frames of a chain are collected without overflow. The recursion is that of the loop. -/
lemma calm_collectFrames (start : EntityId) (chain : Array (Mat4 Float)) (current : Option LinkedEntity) :
    Calm (m.collectFrames start chain current) := by
  fun_induction m.collectFrames start chain current with
  | case1 chain => exact .ok chain
  | case2 chain e hfull => exact .error (by simp)
  | case3 chain e hroom ih =>
    exact (e.calm_expectKind _).bind fun _ _ => (m.calm_relativePlacement e).bind fun relative _ => ih relative

/-- So placements are, also those in a ring. -/
lemma calm_localPlacement : Calm (m.localPlacement e) :=
  (m.calm_collectFrames _ _ _).bind fun _ _ => .ok _

end LinkedModel

/-! ## Curves -/

/-- A curve with the least number of 64 bits in one of its segments. -/
def LinkedEntity.NamesLeast (e : LinkedEntity) : Prop :=
  e.kind = .indexedPolyCurve ∧
    ∃ segments numbers, e.list? 1 = some segments ∧ Numbered segments numbers ∧ Int64.minValue ∈ numbers

/-- A number other than the least one names a point or is refused. -/
lemma calm_numberedPoint (curve : EntityId) (points : List (Vec3 Float)) {n : Int64} (hn : n ≠ Int64.minValue) :
    Calm (numberedPoint curve points.toArray n) := by
  rw [numberedPoint_eq, if_neg hn, readNumber]
  split
  · exact .ok _
  · exact .error (by simp)

namespace LinkedModel

variable {m : LinkedModel} {e : LinkedEntity}

/-- Only a curve that names the least number overflows. -/
lemma calm_curvePoints (m : LinkedModel) (he : ¬ e.NamesLeast) : Calm (m.curvePoints e) := by
  rw [curvePoints]
  split
  · exact (e.calm_requiredList 0).bind fun items _ => m.calm_linkedPoints items
  · rename_i hkind
    refine (m.calm_required e 0).bind fun list _ => list.calm_pointList.bind fun points _ => ?_
    split
    · rename_i segments hsegments
      obtain ⟨numbers, hnumbers⟩ := exists_numbered segments
      rw [segmentPoints_eq hnumbers]
      refine .bind (.mapM fun n hn => calm_numberedPoint e.id points ?_) fun found _ => .ok _
      rintro rfl
      exact he ⟨hkind, segments, numbers, hsegments, hnumbers, hn⟩
    · exact .ok points
  · exact e.calm_cartesianPoint.bind fun _ _ => .ok _
  · exact .error (by simp)

/-- No curve of the model names the least number. -/
def Tame (m : LinkedModel) : Prop := ∀ e ∈ m.entityList, ¬ e.NamesLeast

/-- What a parameter links to is in the model. -/
lemma mem_entityList_of_follow? {t : LinkedEntity} {i : Nat} (ht : m.follow? e i = some t) : t ∈ m.entityList := by
  obtain ⟨h, -, hh⟩ := Option.bind_eq_some_iff.mp ht
  exact mem_entityList_of_get? hh

/-- So is what a parameter must link to. -/
lemma mem_entityList_of_required {t : LinkedEntity} {i : Nat} (ht : m.required e i = .ok t) : t ∈ m.entityList := by
  rw [required] at ht
  split at ht
  · rename_i target htarget
    cases ht
    exact mem_entityList_of_follow? htarget
  · cases ht

/-- So is what a list links to. -/
lemma mem_entityList_of_linkedList {t : LinkedEntity} {i : Nat} (ht : t ∈ m.linkedList e i) : t ∈ m.entityList := by
  obtain ⟨v, -, hv⟩ := List.mem_filterMap.mp ht
  obtain ⟨h, -, hh⟩ := Option.bind_eq_some_iff.mp hv
  exact mem_entityList_of_get? hh

end LinkedModel

/-! ## Profiles and polygons -/

/-- Clipping is refused at most. -/
lemma Polygon.calm_clipped {α : Type} (clip : Clipper α) (outer : List (Vec2 α)) (holes : List (List (Vec2 α))) :
    Calm (clipped clip outer holes) := by
  rw [clipped]
  split
  · exact .ok _
  · exact .error (by simp)

/-- So is cutting a polygon into triangles. -/
lemma Polygon.calm_triangulateWithHoles {α : Type} [Scalar α] (clip : Clipper α) (outer : List (Vec2 α))
    (holes : List (List (Vec2 α))) : Calm (triangulateWithHoles clip outer holes) := by
  rw [triangulateWithHoles]
  split
  · rw [triangulate]
    split
    · exact .error (by simp)
    · split
      · exact .ok _
      · exact calm_clipped clip outer []
  · split
    · exact .error (by simp)
    · exact calm_clipped clip outer _

namespace Profile

/-- A loop with too few points is refused. -/
lemma calm_ofLoop (ring : List (Vec2 Float)) : Calm (ofLoop ring) := by
  rw [ofLoop]
  split
  · exact .error (by simp)
  · exact .ok _

/-- A rectangle without area is refused. -/
lemma calm_rectangle (x y : Float) : Calm (rectangle x y) := by
  rw [rectangle]
  split
  · exact .error (by simp)
  · exact calm_ofLoop _

/-- A circle without area is refused. -/
lemma calm_circle (radius : Float) : Calm (circle radius) := by
  rw [circle]
  split
  · exact .error (by simp)
  · exact calm_ofLoop _

end Profile

/-- A profile is extruded or refused. -/
lemma Extrusion.calm_extrude (clip : Clipper Float) (profile : Profile Float) (depth : Float)
    (direction : Option (Vec3 Float)) (placement : Option (Mat4 Float)) :
    Calm (extrude clip profile depth direction placement) := by
  have htriangles : Calm (profile.triangulate clip) :=
    (Polygon.calm_triangulateWithHoles clip _ _).bind fun _ _ => .ok _
  rw [extrude]
  split
  · exact .error (by simp)
  · refine htriangles.bind fun t _ => ?_
    cases direction with
    | none => exact .ok _
    | some d =>
      dsimp only
      split
      · exact .error (by simp)
      · exact .ok _

namespace LinkedModel

variable {m : LinkedModel} {e : LinkedEntity}

/-- A profile is placed or refused. -/
lemma calm_placeProfile (m : LinkedModel) (e : LinkedEntity) (p : Profile Float) : Calm (m.placeProfile e p) := by
  rw [placeProfile]
  split
  · exact .ok p
  · exact (m.calm_frame2 _).bind fun _ _ => .ok _

section Tame

variable (htame : m.Tame)
include htame

/-- In a tame model the area inside a curve is read or refused. -/
lemma Tame.calm_areaInside (e : LinkedEntity) : Calm (m.areaInside e) := by
  refine (m.calm_required e 2).bind fun curve hcurve => ?_
  exact (m.calm_curvePoints (htame curve (mem_entityList_of_required hcurve))).bind fun _ _ => Profile.calm_ofLoop _

/-- So is every profile, with all its holes. -/
lemma Tame.calm_profile (e : LinkedEntity) : Calm (m.profile e) := by
  rw [profile]
  split
  · exact (e.calm_requiredNumber 3).bind fun x _ => (e.calm_requiredNumber 4).bind fun y _ =>
      (Profile.calm_rectangle x y).bind fun p _ => m.calm_placeProfile e p
  · exact (e.calm_requiredNumber 3).bind fun radius _ =>
      (Profile.calm_circle radius).bind fun p _ => m.calm_placeProfile e p
  · exact htame.calm_areaInside e
  · refine (htame.calm_areaInside e).bind fun area _ => .foldlM (fun p curve hcurve => ?_) area
    exact (m.calm_curvePoints (htame curve (mem_entityList_of_linkedList hcurve))).bind fun _ _ => .ok _
  · exact .error (by simp)

/-! ## Items -/

/-- So is an extruded area. -/
lemma Tame.calm_extrusionMesh (clip : Clipper Float) (item : LinkedEntity) : Calm (m.extrusionMesh clip item) :=
  (m.calm_required item 0).bind fun area _ => (htame.calm_profile area).bind fun profile _ =>
    (Calm.optionMapM fun t _ => m.calm_frame3 t).bind fun position _ =>
      (Calm.optionMapM fun d _ => d.calm_direction).bind fun direction _ =>
        (item.calm_requiredNumber 3).bind fun depth _ => Extrusion.calm_extrude clip profile depth direction position

/-- So is a curve of the model. -/
lemma Tame.calm_curveMesh {item : LinkedEntity} (hitem : item ∈ m.entityList) : Calm (m.curveMesh item) := by
  refine (m.calm_curvePoints (htame item hitem)).bind fun points _ => ?_
  split
  · exact .error (by simp)
  · exact .ok _

end Tame

/-- A triangle is added or refused: the range of its numbers is checked before anything is computed of them. -/
lemma calm_addNumbered (item : EntityId) (count : Nat) (mesh : Mesh Float32) (triangle : LinkedValue) :
    Calm (addNumbered item count mesh triangle) := by
  rw [addNumbered]
  split
  · split
    · exact .error (by simp)
    · exact .ok _
  · exact .error (by simp)

/-- So is a set of triangles, in every model. -/
lemma calm_faceSetMesh (m : LinkedModel) (item : LinkedEntity) : Calm (m.faceSetMesh item) :=
  (m.calm_required item 0).bind fun list _ => list.calm_pointList.bind fun points _ =>
    (item.calm_requiredList 3).bind fun _ _ =>
      (Calm.foldlM (fun mesh triangle _ => calm_addNumbered item.id points.length mesh triangle) _).bind
        fun _ _ => .ok _

/-- The boundary of a face is read or refused. -/
lemma calm_boundPoints (m : LinkedModel) (bound : LinkedEntity) : Calm (m.boundPoints bound) := by
  refine (m.calm_required bound 0).bind fun ring _ => ?_
  by_cases hkind : ring.kind ≠ .polyLoop
  · rw [if_pos hkind]
    exact .error (by simp)
  · rw [if_neg hkind]
    exact (ring.calm_requiredList 0).bind fun items _ => (m.calm_linkedPoints items).bind fun _ _ => .ok _

/-- So is a face. -/
lemma calm_faceLoops (m : LinkedModel) (face : LinkedEntity) : Calm (m.faceLoops face) :=
  (Calm.mapM fun bound _ => m.calm_boundPoints bound).bind fun _ _ => .ok _

/-- So is a shell. -/
lemma calm_shellFaces (m : LinkedModel) (shell : LinkedEntity) : Calm (m.shellFaces shell) := by
  rw [shellFaces]
  split
  · exact .error (by simp)
  · exact .mapM fun face _ => m.calm_faceLoops face

/-- So are the faces of an item. -/
lemma calm_faces (m : LinkedModel) (item : LinkedEntity) : Calm (m.faces item) := by
  rw [faces]
  split
  · exact (m.calm_required item 0).bind fun shell _ => m.calm_shellFaces shell
  · exact (Calm.mapM fun shell _ => m.calm_shellFaces shell).bind fun _ _ => .ok _
  · exact (m.calm_faceLoops item).bind fun _ _ => .ok _
  · exact (m.calm_boundPoints item).bind fun _ _ => .ok _
  · exact (m.calm_boundPoints item).bind fun _ _ => .ok _
  · exact .error (by simp)

/-- So is their mesh, in every model. -/
lemma calm_facesMesh (m : LinkedModel) (clip : Clipper Float) (item : LinkedEntity) : Calm (m.facesMesh clip item) := by
  refine (m.calm_faces item).bind fun faces _ => ?_
  dsimp only
  split
  · exact .error (by simp)
  · exact .ok _

/-! ## Products -/

section Table

variable {table : MethodTable} (htable : table.Known) (htame : m.Tame)
include htable htame

/-- In a tame model the methods of this library make the mesh of an item or refuse it. -/
lemma Tame.calm_process {item : LinkedEntity} (hitem : item ∈ m.entityList) : Calm (table.process m item) := by
  rw [MethodTable.process]
  cases hmethod : table.method? item.kind with
  | none => exact .error (by simp)
  | some method =>
    obtain ⟨clip, -, hall⟩ := htable _ (MethodTable.mem_entries_of_method? hmethod)
    refine Calm.bind ?_ fun mesh _ => .ok _
    simp only [ShapeMethod.all, List.mem_cons, List.not_mem_nil, or_false] at hall
    rcases hall with rfl | rfl | rfl | rfl
    · exact htame.calm_extrusionMesh clip item
    · exact m.calm_faceSetMesh item
    · exact m.calm_facesMesh clip item
    · exact htame.calm_curveMesh hitem

omit htable htame in
/-- A representation remembers no overflow, since it ends at one. -/
lemma error_ne_overflow_of_gather {r : LinkedEntity} {error : Option ShapeError} {g : Gathered}
    (h : m.gather table r error = .ok g) (herror : error ≠ some .overflow) : g.error ≠ some .overflow := by
  refine foldlM_invariant (P := fun g : Gathered => g.error ≠ some .overflow) ?_ herror h
  intro g item _ g' hg hadd
  rcases Gathered.add_cases table m g item with
    ⟨-, heq⟩ | ⟨made, -, heq⟩ | ⟨made, -, heq⟩ | ⟨-, heq⟩ | ⟨error, hother, -, heq⟩ <;>
    rw [heq] at hadd <;> cases hadd
  · exact hg
  · exact hg
  · exact hg
  · cases hbefore : g.error with
    | none => simpa using hother
    | some first => simpa [hbefore] using hg

/-- In a tame model every representation is gone through to its end. -/
lemma Tame.calm_gather (r : LinkedEntity) (error : Option ShapeError) : Calm (m.gather table r error) := by
  refine .foldlM (fun g item hitem => ?_) _
  have hprocess := htame.calm_process htable (mem_entityList_of_linkedList hitem)
  rcases Gathered.add_cases table m g item with
    ⟨-, heq⟩ | ⟨made, -, heq⟩ | ⟨made, -, heq⟩ | ⟨hover, -⟩ | ⟨error, -, -, heq⟩
  · exact heq ▸ .ok g
  · exact heq ▸ .ok _
  · exact heq ▸ .ok _
  · exact absurd hover hprocess
  · exact heq ▸ .ok _

/-- One of the representations gives a mesh, or the first error is the result. -/
lemma Tame.calm_representedMesh (product : EntityId) (rs : List LinkedEntity) {error : Option ShapeError}
    (herror : error ≠ some .overflow) : Calm (m.representedMesh table product rs error) := by
  induction rs generalizing error with
  | nil =>
    refine .error ?_
    cases error with
    | none => simp
    | some e => simpa using herror
  | cons r rs ih =>
    refine (htame.calm_gather htable r error).bind fun g hg => ?_
    split
    · exact .ok _
    · split
      · exact .ok _
      · exact ih (error_ne_overflow_of_gather hg herror)

/-- In a tame model the mesh of an entity is made and placed, or refused. -/
theorem Tame.calm_placedMesh (strategy : Strategy) (he : e ∈ m.entityList) :
    Calm (m.placedMesh table strategy e) := by
  cases strategy with
  | item => exact (htame.calm_process htable he).bind fun _ _ => .ok _
  | product =>
    have hplacement : Calm (m.productPlacement e) := by
      rw [productPlacement]
      split
      · exact m.calm_localPlacement _
      · exact .ok _
    have hmesh : Calm (m.productMesh table e) :=
      (m.calm_required e 6).bind fun shape _ => (shape.calm_expectKind _).bind fun _ _ =>
        htame.calm_representedMesh htable e.id _ (by simp)
    exact hplacement.bind fun _ _ => hmesh.bind fun _ _ => .ok _

end Table

end LinkedModel

end BuildingModel
