import BuildingModel.Proofs.View.Cells
import BuildingModel.Proofs.View.InView
import BuildingModel.View.Picking

/-!
# What is picked is drawn

Picking goes through the objects of a scene by itself and decides again what is hidden, clipped, culled and
in which detail it is drawn. `Look.Hits` says what a hit must have to be a triangle of what is drawn. No
object and no triangle that is looked at breaks this (`pickTriangle_cases`, `pickObject_cases`), so it
holds of what a ray meets in the end, and what is hit stands in one batch (`Look.pickRay?_drawn`).
-/

namespace BuildingModel

variable {α : Type}

/-- The ray in the coordinates of an object, given the inverse of its placement. -/
def Ray.within [Scalar α] (r : Ray α) (inverse : Mat4 α) : Ray α :=
  ⟨inverse.transformPoint r.origin, inverse.transformVector r.direction⟩

namespace Look

variable [Stored α] {l : Look α} {s : Scene α} {ray localRay : Ray α} {best : Option (PickHit α)}
  {hit : PickHit α} {key : ObjectKey} {o : SceneObject α} {level : DetailLevel} {g : Geometry α} {i : Nat}

/-- The hit is a triangle of the geometry `g` that is drawn for the object `o`, where the ray meets it and
no plane clips it. -/
structure Hits (l : Look α) (s : Scene α) (ray : Ray α) (hit : PickHit α) (o : SceneObject α)
    (level : DetailLevel) (g : Geometry α) : Prop where
  object : s.object? hit.object = some o
  entity : hit.entity = o.entity
  fate : l.fate s o = .visible level g
  primitive : g.primitive = .triangles
  triangle : hit.triangle < g.triangleCount
  meets : ∃ inverse, o.inverse = some inverse ∧
    (ray.within inverse).meet? (g.corners hit.triangle) = some hit.distance
  point : hit.point = ray.point hit.distance
  kept : l.filter.clipping.clipsPoint hit.point = false

/-- The nearest hit so far, if there is one, is on something that is drawn. -/
def Justified (l : Look α) (s : Scene α) (ray : Ray α) (best : Option (PickHit α)) : Prop :=
  ∀ hit ∈ best, ∃ o level g, l.Hits s ray hit o level g

/-! ## One triangle -/

/-- A triangle changes nothing, or is hit where it is not clipped. -/
lemma pickTriangle_cases (l : Look α) (ray localRay : Ray α) (g : Geometry α) (o : SceneObject α)
    (key : ObjectKey) (best : Option (PickHit α)) (i : Nat) :
    l.pickTriangle ray localRay g (o, key) best i = best ∨
      ∃ t, localRay.meet? (g.corners i) = some t ∧ l.filter.clipping.clipsPoint (ray.point t) = false ∧
        l.pickTriangle ray localRay g (o, key) best i = some ⟨key, o.entity, i, ray.point t, t⟩ := by
  cases hmeet : localRay.meet? (g.corners i) with
  | none => exact .inl (by simp only [pickTriangle, hmeet])
  | some t =>
    simp only [pickTriangle, hmeet]
    split
    · exact .inl rfl
    · rename_i hnearer
      rw [Bool.or_eq_true, not_or, Bool.not_eq_true, Bool.not_eq_true] at hnearer
      exact .inr ⟨t, rfl, hnearer.2, rfl⟩

/-- A hit on a triangle of what is drawn is justified. -/
lemma Justified.pickTriangle {inverse : Mat4 α} (hbest : l.Justified s ray best)
    (ho : s.object? key = some o) (hfate : l.fate s o = .visible level g)
    (hinverse : o.inverse = some inverse) (hprimitive : g.primitive = .triangles)
    (hi : i < g.triangleCount) :
    l.Justified s ray (l.pickTriangle ray (ray.within inverse) g (o, key) best i) := by
  rcases l.pickTriangle_cases ray (ray.within inverse) g o key best i with heq | ⟨t, hmeet, hkept, heq⟩
  · rw [heq]
    exact hbest
  · rw [heq]
    rintro hit ⟨⟩
    exact ⟨o, level, g, ho, rfl, hfate, hprimitive, hi, ⟨inverse, hinverse, hmeet⟩, rfl, hkept⟩

/-! ## One object -/

/-- An object is shown if it is neither hidden nor clipped nor culled. -/
lemma shows_iff : l.shows o = true ↔ l.filter.isHidden o = false ∧
    l.filter.clipping.clipsBox o.worldBounds = false ∧ l.frustum.intersects o.worldBounds = true := by
  simp only [shows, Bool.and_eq_true, Bool.not_eq_true', and_assoc]

/-- What is drawn is what is shown and has a geometry. -/
lemma fate_eq_visible_iff : l.fate s o = .visible level g ↔
    l.shows o = true ∧ s.active? o (l.requestedLevel o) = some (level, g) := by
  constructor
  · intro hfate
    rw [shows_iff]
    rw [fate] at hfate
    split_ifs at hfate with hhidden hclip hview
    cases hactive : s.active? o (l.requestedLevel o) with
    | none => simp [hactive] at hfate
    | some active =>
      simp only [hactive, Fate.visible.injEq] at hfate
      exact ⟨⟨by simpa using hhidden, by simpa using hclip, by simpa using hview⟩,
        by rw [← hfate.1, ← hfate.2]⟩
  · rintro ⟨hshows, hactive⟩
    obtain ⟨hhidden, hclip, hview⟩ := shows_iff.mp hshows
    exact fate_of_active hhidden hclip hview hactive

/-- An object is passed by, or it is drawn in triangles, can be picked, and its triangles are looked at one
after the other. -/
lemma pickObject_cases (l : Look α) (s : Scene α) (ray : Ray α) (best : Option (PickHit α))
    (o : SceneObject α) (key : ObjectKey) :
    l.pickObject s ray best (o, key) = best ∨
      ∃ inverse level g, l.fate s o = .visible level g ∧ o.inverse = some inverse ∧
        g.primitive = .triangles ∧ l.pickObject s ray best (o, key) =
          (List.range g.triangleCount).foldl (l.pickTriangle ray (ray.within inverse) g (o, key)) best := by
  cases hshows : l.shows o with
  | false => exact .inl (by simp [pickObject, hshows])
  | true =>
    obtain ⟨hhidden, hclip, hview⟩ := shows_iff.mp hshows
    cases hentry : o.worldBounds.rayEntry? ray.origin ray.direction with
    | none => exact .inl (by simp [pickObject, hshows, hentry])
    | some entry =>
      cases hinverse : o.inverse with
      | none => exact .inl (by simp [pickObject, hshows, hentry, hinverse])
      | some inverse =>
        cases hactive : s.active? o (l.requestedLevel o) with
        | none => exact .inl (by simp [pickObject, hshows, hentry, hinverse, hactive])
        | some active =>
          obtain ⟨level, g⟩ := active
          simp only [pickObject, hshows, hentry, hinverse, hactive, Bool.not_true, Bool.false_eq_true, if_false]
          split
          · exact .inl rfl
          · rename_i hskip
            have hprimitive : g.primitive = .triangles := by
              cases hp : g.primitive with
              | triangles => rfl
              | lines => exact absurd (by simp [hp]) hskip
            exact .inr ⟨inverse, level, g, fate_of_active hhidden hclip hview hactive, rfl, hprimitive, rfl⟩

/-- A hit on an object is justified. -/
lemma Justified.pickObject (hbest : l.Justified s ray best) (ho : s.object? key = some o) :
    l.Justified s ray (l.pickObject s ray best (o, key)) := by
  rcases l.pickObject_cases s ray best o key with heq | ⟨inverse, level, g, hfate, hinverse, hprimitive, heq⟩
  · rw [heq]
    exact hbest
  · rw [heq]
    apply List.foldlRecOn _ _ hbest
    intro best hbest i hi
    exact hbest.pickTriangle ho hfate hinverse hprimitive (List.mem_range.mp hi)

/-! ## All objects -/

/-- Whatever a ray meets in a scene is drawn. -/
lemma hits_of_pickRay? (hhit : l.pickRay? s ray = some hit) :
    ∃ r o level g, Ray.ofDirection? ray.origin ray.direction = some r ∧ l.Hits s r hit o level g := by
  cases hray : Ray.ofDirection? ray.origin ray.direction with
  | none => simp [pickRay?, hray] at hhit
  | some r =>
    simp only [pickRay?, hray] at hhit
    have hall : l.Justified s r (s.keyed.foldl (l.pickObject s r) none) := by
      apply List.foldlRecOn
      · intro hit hnone
        cases hnone
      · rintro best hbest ⟨o, key⟩ hkeyed
        exact hbest.pickObject (Scene.mem_keyed_iff.mp hkeyed)
    obtain ⟨o, level, g, hhits⟩ := hall hit hhit
    exact ⟨r, o, level, g, rfl, hhits⟩

/-- What is picked in a scene is an instance of one batch. It is a triangle of the geometry that is drawn
for its object, no plane that is enabled clips it, and the placement of the object has an inverse. -/
theorem pickRay?_drawn {shapes : List (PlacedShape α)}
    (hhit : l.pickRay? (Scene.build shapes) ray = some hit) :
    ∃ o level g, l.Draws (Scene.build shapes) hit.object o level g ∧ hit.entity = o.entity ∧
      g.primitive = .triangles ∧ hit.triangle < g.triangleCount ∧
      (∀ c ∈ l.filter.clipping.enabled, c.clipsPoint hit.point = false) ∧
      ∃ r inverse, Ray.ofDirection? ray.origin ray.direction = some r ∧
        o.transform.inverse? = some inverse ∧ hit.point = r.point hit.distance ∧
        (r.within inverse).meet? (g.corners hit.triangle) = some hit.distance := by
  obtain ⟨r, o, level, g, hray, hhits⟩ := hits_of_pickRay? hhit
  obtain ⟨inverse, hinverse, hmeet⟩ := hhits.meets
  have hplaced : o.inverse = o.transform.inverse? := by
    have hobject := hhits.object
    rw [Scene.object?_build_eq] at hobject
    obtain ⟨a, -, rfl⟩ := Option.map_eq_some_iff.mp hobject
    rfl
  refine ⟨o, level, g, draws_build hhits.object hhits.fate, hhits.entity, hhits.primitive, hhits.triangle,
    ?_, r, inverse, hray, hplaced ▸ hinverse, hhits.point, hmeet⟩
  intro c hc
  have hall := hhits.kept
  rw [ClippingPlanes.clipsPoint, List.any_eq_false] at hall
  exact Bool.eq_false_of_not_eq_true (hall c (List.mem_filter.mp hc).1)

end Look

/-- Three triangles one above the other: on top one that is flattened, below it two as they are. -/
def stackedTriangles : List (PlacedShape ℚ) :=
  [{ turnedTriangle with
      entity := 3, transform := ⟨⟨0, 1, 0, 0⟩, ⟨-1, 0, 0, 0⟩, ⟨0, 0, 0, 0⟩, ⟨1, 0, 6, 1⟩⟩ },
    { turnedTriangle with
      entity := 2, transform := ⟨⟨0, 1, 0, 0⟩, ⟨-1, 0, 0, 0⟩, ⟨0, 0, 1, 0⟩, ⟨1, 0, 4, 1⟩⟩ },
    turnedTriangle]

/-- A look from above, with the second triangle hidden and a corner of each triangle clipped. -/
def lookFromAbove : Look ℚ where
  frustum := ⟨[⟨⟨0, -1, 0⟩, 1⟩, ⟨⟨1, 0, 0⟩, 0⟩]⟩
  eye := ⟨0, 1, 10⟩
  thresholds := ⟨10, 50, 150⟩
  filter := (VisibilityFilter.empty.hideEntity 2).setClipping ⟨[⟨⟨1, 0, 0⟩, -1, true, false⟩]⟩

/-- A triangle has no simpler variant. -/
lemma build_turnedTriangle : DetailSet.build turnedTriangle.geometry = ⟨turnedTriangle.geometry, []⟩ := by
  have hcoarser : (DetailSet.build turnedTriangle.geometry).coarser.isEmpty = true := by
    simp only [DetailSet.build, DetailSet.candidates, Geometry.cluster?,
      Geometry.clusterMesh_eq_quotientMesh turnedTriangle_accepted]
    decide +kernel
  calc DetailSet.build turnedTriangle.geometry
    _ = ⟨(DetailSet.build turnedTriangle.geometry).high, (DetailSet.build turnedTriangle.geometry).coarser⟩ := rfl
    _ = ⟨turnedTriangle.geometry, []⟩ := by rw [Scene.high_build, List.isEmpty_iff.mp hcoarser]

/-- All three triangles have one geometry, in one variant. -/
lemma geometries_stackedTriangles :
    (Scene.build stackedTriangles).geometries = #[⟨turnedTriangle.geometry, []⟩] := by
  simp [Scene.build, stackedTriangles, List.eraseDupsBy_cons, Scene.sameContent, build_turnedTriangle]

/-- The flattened triangle cannot be picked and the hidden one is passed by, so the lowest one is picked. -/
theorem Look.pickRay?_stackedTriangles : ∃ hit o level g,
    lookFromAbove.pickRay? (Scene.build stackedTriangles) ⟨⟨0, 1, 10⟩, ⟨0, 0, -8⟩⟩ = some hit ∧
    hit.entity = 1 ∧ lookFromAbove.Draws (Scene.build stackedTriangles) hit.object o level g ∧
    hit.entity = o.entity ∧ g.primitive = .triangles ∧ hit.triangle < g.triangleCount := by
  have hentity : (lookFromAbove.pickRay? (Scene.build stackedTriangles)
      ⟨⟨0, 1, 10⟩, ⟨0, 0, -8⟩⟩).map (·.entity) = some 1 := by
    have hscene : Scene.build stackedTriangles =
        { Scene.build stackedTriangles with geometries := #[⟨turnedTriangle.geometry, []⟩] } := by
      rw [← geometries_stackedTriangles]
    rw [hscene]
    decide +kernel
  obtain ⟨hit, hhit, hone⟩ := Option.map_eq_some_iff.mp hentity
  obtain ⟨o, level, g, hdraws, ho, hprimitive, htriangle, -⟩ := pickRay?_drawn hhit
  exact ⟨hit, o, level, g, hhit, hone, hdraws, ho, hprimitive, htriangle⟩

end BuildingModel
