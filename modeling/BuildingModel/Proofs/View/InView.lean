import BuildingModel.Proofs.Space.Rational
import BuildingModel.Proofs.View.Accounting

/-!
# What is in view is drawn

Objects are culled and clipped by boxes, and boxes are larger than what they hold. Over ordered scalars
nothing is lost by this: a frustum that has a point of a box in view does not throw out the box, and a
plane that leaves a point of a box does not cut the whole box away. Hence an object is drawn as soon as
one of its vertices is in view and no plane cuts all of them away (`Look.draws_of_inView`); the vertices
that different planes leave need not be the same.
-/

namespace BuildingModel

variable {α : Type}

/-! ## Boxes and planes -/

section Ordered

variable [Scalar α] [OrderedScalar α] {b : Box α} {p : Vec3 α}

/-- No point of a box lies farther inside of a plane than its innermost corner. -/
lemma Plane.signedDistance_le_innermost (plane : Plane α) (hp : b.contains p = true) :
    plane.signedDistance p ≤ plane.signedDistance (plane.innermost b) :=
  OrderedScalar.add_le_add (Box.dot_le_dot_farthest hp plane.normal) (OrderedScalar.le_refl _)

/-- A box with a point in view is not culled. -/
lemma Frustum.intersects_of_contains {f : Frustum α} (hp : b.contains p = true)
    (hf : f.contains p = true) : f.intersects b = true := by
  rw [intersects, Box.isEmpty_eq_false hp, Bool.not_false, Bool.true_and, List.all_eq_true]
  intro plane hplane
  have hin : 0 ≤ plane.signedDistance p := of_decide_eq_true (List.all_eq_true.mp hf plane hplane)
  exact decide_eq_true (OrderedScalar.le_trans hin (plane.signedDistance_le_innermost hp))

namespace ClippingPlane

/-- Some corner of a box lies at least as far on the kept side as a point of the box. -/
lemma exists_corner (c : ClippingPlane α) (hp : b.contains p = true) :
    ∃ q ∈ b.corners, c.signedDistance p ≤ c.signedDistance q := by
  cases hflip : c.flip with
  | false =>
    refine ⟨_, b.farthest_mem_corners c.normal, ?_⟩
    simp only [signedDistance, hflip, Bool.false_eq_true, if_false]
    exact OrderedScalar.sub_le_sub_right (Box.dot_le_dot_farthest hp c.normal) _
  | true =>
    refine ⟨_, b.nearest_mem_corners c.normal, ?_⟩
    simp only [signedDistance, hflip, if_true]
    apply OrderedScalar.neg_le_neg
    exact OrderedScalar.sub_le_sub_right (Box.dot_nearest_le_dot hp c.normal) _

/-- A box with a point that is left is not clipped. -/
lemma clipsBox_eq_false {c : ClippingPlane α} (hp : b.contains p = true)
    (hc : c.clipsPoint p = false) : c.clipsBox b = false := by
  cases henabled : c.enabled with
  | false => simp [clipsBox, henabled]
  | true =>
    have hkept : 0 ≤ c.signedDistance p := by
      rw [clipsPoint, henabled, Bool.true_and, decide_eq_false_iff_not, OrderedScalar.not_lt] at hc
      exact hc
    obtain ⟨q, hq, hle⟩ := c.exists_corner hp
    rw [clipsBox, Bool.and_eq_false_iff, List.all_eq_false]
    refine .inr ⟨q, hq, ?_⟩
    rw [decide_eq_true_eq, OrderedScalar.not_lt]
    exact OrderedScalar.le_trans hkept hle

end ClippingPlane

end Ordered

/-! ## Drawn objects -/

namespace Look

variable [Stored α] {l : Look α} {s : Scene α} {shapes : List (PlacedShape α)} {key : ObjectKey}
  {o : SceneObject α} {level : DetailLevel} {g : Geometry α}

/-- The object `o` is drawn as `g`: it counts as visible, and it is an instance of one batch. -/
structure Draws (l : Look α) (s : Scene α) (key : ObjectKey) (o : SceneObject α) (level : DetailLevel)
    (g : Geometry α) : Prop where
  object : s.object? key = some o
  fate : l.fate s o = .visible level g
  active : s.active? o (l.requestedLevel o) = some (level, g)
  /-- It is among the objects that are counted as visible. -/
  counted : key ∈ l.visibleKeys s ∧ (l.visibleKeys s).length = (l.collect s).visible
  batch : ∃! b, b ∈ (l.collect s).batches ∧ key ∈ b.instances.map (·.object)
  /-- The batch is drawn with a geometry of the scene that has the digest of `g`. -/
  digest : ∀ b ∈ (l.collect s).batches, key ∈ b.instances.map (·.object) → b.hash = g.hash ∧
    ∃ drawn, (Scene.geometry? s b.slot).bind (·.get? b.level) = some drawn ∧ drawn.hash = g.hash

/-- What is neither hidden nor clipped nor culled is drawn, if its geometry is there. -/
lemma fate_of_active (hhidden : l.filter.isHidden o = false)
    (hclip : l.filter.clipping.clipsBox o.worldBounds = false)
    (hview : l.frustum.intersects o.worldBounds = true)
    (hactive : s.active? o (l.requestedLevel o) = some (level, g)) : l.fate s o = .visible level g := by
  rw [fate, hhidden, hclip, hview, hactive]
  rfl

/-- What is visible in a scene is drawn. -/
lemma draws_build (ho : (Scene.build shapes).object? key = some o)
    (hfate : l.fate (Scene.build shapes) o = .visible level g) :
    l.Draws (Scene.build shapes) key o level g := by
  have haccounts := l.accounts_build shapes
  have hcount : (Batch.keysOf (l.collect (Scene.build shapes)).batches).count key = 1 :=
    haccounts.once key o level g ho hfate
  have hdigest : ∀ b ∈ (l.collect (Scene.build shapes)).batches, key ∈ b.instances.map (·.object) →
      b.hash = g.hash := by
    intro b hb hkey
    obtain ⟨i, hi, rfl⟩ := List.mem_map.mp hkey
    obtain ⟨o', level', g', ho', hfate', -, hhash, -, -⟩ := haccounts.members b hb i hi
    cases ho.symm.trans ho'
    cases hfate.symm.trans hfate'
    exact hhash.symm
  refine ⟨ho, hfate, active?_of_fate hfate, ⟨?_, l.length_visibleKeys _⟩, ?_, ?_⟩
  · rw [visibleKeys]
    refine List.mem_map.mpr ⟨(o, key), List.mem_filter.mpr ⟨Scene.mem_keyed_iff.mpr ho, ?_⟩, rfl⟩
    rw [hfate]
    rfl
  · obtain ⟨b, hb, hkey⟩ := List.mem_flatMap.mp (List.one_le_count_iff.mp hcount.ge)
    refine ⟨b, ⟨hb, hkey⟩, ?_⟩
    rintro b' ⟨hb', hkey'⟩
    -- batches have different digests
    apply List.inj_on_of_nodup_map haccounts.hashes hb' hb
    rw [hdigest b hb hkey, hdigest b' hb' hkey']
  · intro b hb hkey
    obtain ⟨drawn, hdrawn, hhash⟩ := haccounts.geometry b hb
    exact ⟨hdigest b hb hkey, drawn, hdrawn, hhash.trans (hdigest b hb hkey)⟩

end Look

/-! ## Objects in view -/

/-- The vertices of a shape where it is placed. -/
def PlacedShape.vertices [Scalar α] (a : PlacedShape α) : List (Vec3 α) :=
  a.geometry.mesh.points.map a.transform.transformPoint

/-- The bounds of an accepted geometry are those of its points. -/
lemma Geometry.Accepted.bounds_eq [Stored α] {g : Geometry α} (hg : g.Accepted) :
    g.bounds = Box.ofPoints g.mesh.points := by
  obtain ⟨entity, kind, primitive, m, color, hm⟩ := hg
  unfold ofMesh at hm
  split at hm
  · cases hm
  · cases hm
    simp only [Mesh.points, (completeNormals_eq m).1]

/-- The object of a shape has its place. -/
lemma Scene.object?_build_eq [Stored α] (shapes : List (PlacedShape α)) (key : ObjectKey) :
    (build shapes).object? key =
      shapes[key]?.map (place ((shapes.map (·.geometry)).eraseDupsBy sameContent)) := by
  simp only [build, object?, List.getElem?_toArray, List.getElem?_map]

section Ordered

variable [Stored α] [OrderedScalar α] {shapes : List (PlacedShape α)} {a : PlacedShape α}
  {o : SceneObject α} {key : ObjectKey} {l : Look α} {p : Vec3 α}

/-- The box of an object in the world holds its vertices. -/
lemma Scene.worldBounds_contains (ha : shapes[key]? = some a) (ho : (build shapes).object? key = some o)
    (haccepted : a.geometry.Accepted) (haffine : a.transform.IsAffine) (hp : p ∈ a.vertices) :
    o.worldBounds.contains p = true := by
  rw [object?_build_eq, ha, Option.map_some, Option.some.injEq] at ho
  obtain ⟨q, hq, rfl⟩ := List.mem_map.mp hp
  rw [← ho]
  apply Box.contains_transformed haffine
  rw [haccepted.bounds_eq]
  exact Box.contains_ofPoints hq

/-- An object that is not hidden is drawn if a vertex of it is in view and no plane clips all of its
vertices. -/
theorem Look.draws_of_inView (ha : shapes[key]? = some a)
    (ho : (Scene.build shapes).object? key = some o) (haccepted : a.geometry.Accepted)
    (haffine : a.transform.IsAffine) (hhidden : l.filter.isHidden o = false)
    (hview : ∃ p ∈ a.vertices, l.frustum.contains p = true)
    (hclip : ∀ c ∈ l.filter.clipping.planes, ∃ p ∈ a.vertices, c.clipsPoint p = false) :
    ∃ level g, l.Draws (Scene.build shapes) key o level g := by
  have hbox : ∀ p ∈ a.vertices, o.worldBounds.contains p = true := fun p hp =>
    Scene.worldBounds_contains ha ho haccepted haffine hp
  obtain ⟨p, hp, hin⟩ := hview
  have hintersects := Frustum.intersects_of_contains (hbox p hp) hin
  have hclips : l.filter.clipping.clipsBox o.worldBounds = false := by
    rw [ClippingPlanes.clipsBox, List.any_eq_false]
    intro c hc
    obtain ⟨q, hq, hkept⟩ := hclip c hc
    rw [ClippingPlane.clipsBox_eq_false (hbox q hq) hkept]
    exact Bool.false_ne_true
  obtain ⟨level, g, hactive, -⟩ := Scene.active?_build ho (l.requestedLevel o)
  exact ⟨level, g, draws_build ho (fate_of_active hhidden hclips hintersects hactive)⟩

end Ordered

/-- A triangle, turned by a quarter and moved. -/
def turnedTriangle : PlacedShape ℚ :=
  let m : Mesh ℚ := ⟨#[0, 0, 0, 4, 0, 0, 0, 4, 0], #[0, 0, 1, 0, 0, 1, 0, 0, 1], #[0, 1, 2]⟩
  { entity := 1, kind := .wall, name := none
    transform := ⟨⟨0, 1, 0, 0⟩, ⟨-1, 0, 0, 0⟩, ⟨0, 0, 1, 0⟩, ⟨1, 0, 2, 1⟩⟩
    geometry := {
      entity := 1, kind := .wall, primitive := .triangles, mesh := m, color := ⟨0.5, 0.5, 0.5⟩
      bounds := Box.ofPoints m.points
      hash := Digest.hash64 (m.contentBytes .triangles) } }

lemma turnedTriangle_accepted : turnedTriangle.geometry.Accepted := by
  refine ⟨1, .wall, .triangles, turnedTriangle.geometry.mesh, ⟨0.5, 0.5, 0.5⟩, ?_⟩
  have hfault : Geometry.fault? 1 turnedTriangle.geometry.mesh = none := by
    simp [Geometry.fault?_eq_none_iff, turnedTriangle, Mesh.vertexCount, Scalar.isFinite]
  rw [Geometry.ofMesh, hfault]
  rfl

/-- Where its vertices are placed. -/
lemma turnedTriangle_vertices : turnedTriangle.vertices = [⟨1, 0, 2⟩, ⟨1, 4, 2⟩, ⟨-3, 0, 2⟩] := by
  decide +kernel

/-- A look that has one corner of the triangle in view, with a plane that leaves only the second corner and
a turned plane that leaves only the third. -/
def cornerLook : Look ℚ where
  frustum := ⟨[⟨⟨0, -1, 0⟩, 1⟩, ⟨⟨1, 0, 0⟩, 0⟩]⟩
  eye := 0
  thresholds := ⟨10, 50, 150⟩
  filter := VisibilityFilter.empty.setClipping
    ⟨[⟨⟨0, 1, 0⟩, 3, true, false⟩, ⟨⟨1, 0, 0⟩, -2, true, true⟩]⟩

/-- The triangle is drawn, although no corner of it is in view and left by all planes. -/
theorem Look.draws_turnedTriangle :
    (∀ p ∈ turnedTriangle.vertices,
      cornerLook.frustum.contains p = false ∨ cornerLook.filter.clipping.clipsPoint p = true) ∧
    ∃ o level g, cornerLook.Draws (Scene.build [turnedTriangle]) 0 o level g := by
  constructor
  · rw [turnedTriangle_vertices]
    decide +kernel
  · obtain ⟨o, ho⟩ : ∃ o, (Scene.build [turnedTriangle]).object? 0 = some o :=
      ⟨_, Scene.object?_build_eq [turnedTriangle] 0⟩
    obtain ⟨level, g, hdraws⟩ := draws_of_inView (l := cornerLook) (a := turnedTriangle) rfl ho
      turnedTriangle_accepted ⟨rfl, rfl, rfl, rfl⟩ rfl
      (by rw [turnedTriangle_vertices]; decide +kernel)
      (by rw [turnedTriangle_vertices]; decide +kernel)
    exact ⟨o, level, g, hdraws⟩

end BuildingModel
