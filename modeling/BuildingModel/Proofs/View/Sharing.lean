import BuildingModel.Proofs.Shape.Content
import BuildingModel.View.Scene

/-!
# Shared geometries

A scene stores one geometry for all shapes with the same digest. `Scene.FaithfulTo` says that this loses
nothing: two objects share a place exactly if their shapes have the same content, and what is stored in
full detail for an object is what its shape has. Provided that no two digests collide, a scene is
faithful exactly if no two of its shapes are shifted against each other.
-/

namespace BuildingModel

namespace Scene

variable {α : Type}

/-- Geometries count as the same if their digests are. -/
lemma sameContent_iff {g h : Geometry α} : sameContent g h = true ↔ g.hash = h.hash := by
  rw [sameContent, beq_iff_eq]

/-! ## The different geometries -/

/-- What is stored is one of the geometries. -/
lemma mem_of_mem_distinct {gs : List (Geometry α)} {g : Geometry α}
    (hg : g ∈ gs.eraseDupsBy sameContent) : g ∈ gs := by
  -- the list that is left after its head is a filter of the tail, so the recursion is on the length
  induction hn : gs.length using Nat.strong_induction_on generalizing gs with
  | _ n ih =>
    cases gs with
    | nil => exact hg
    | cons first rest =>
      rw [List.eraseDupsBy_cons, List.mem_cons] at hg
      rcases hg with rfl | hg
      · exact List.mem_cons_self
      · have hlen := List.length_filter_le (fun b => sameContent b first = false) rest
        have hmem := ih _ (by rw [← hn, List.length_cons]; omega) hg rfl
        exact List.mem_cons_of_mem _ (List.mem_filter.mp hmem).1

/-- Of each digest, one geometry is kept. -/
lemma exists_mem_distinct {gs : List (Geometry α)} {g : Geometry α} (hg : g ∈ gs) :
    ∃ kept ∈ gs.eraseDupsBy sameContent, g.hash = kept.hash := by
  induction hn : gs.length using Nat.strong_induction_on generalizing gs with
  | _ n ih =>
    cases gs with
    | nil => cases hg
    | cons first rest =>
      rw [List.eraseDupsBy_cons]
      by_cases hfirst : g.hash = first.hash
      · exact ⟨first, List.mem_cons_self, hfirst⟩
      · have hrest : g ∈ rest := by
          rcases List.mem_cons.mp hg with rfl | hrest
          · exact absurd rfl hfirst
          · exact hrest
        have hlen := List.length_filter_le (fun b => sameContent b first = false) rest
        have hleft : g ∈ rest.filter fun b => sameContent b first = false := by
          rw [List.mem_filter, decide_eq_true_eq, Bool.eq_false_iff, Ne, sameContent_iff]
          exact ⟨hrest, hfirst⟩
        obtain ⟨kept, hkept, hhash⟩ := ih _ (by rw [← hn, List.length_cons]; omega) hleft rfl
        exact ⟨kept, List.mem_cons_of_mem _ hkept, hhash⟩

/-- At the place of a geometry stands one with its digest. -/
lemma getElem?_slot {gs : List (Geometry α)} {g : Geometry α} (hg : g ∈ gs) :
    ∃ kept ∈ gs, g.hash = kept.hash ∧
      (gs.eraseDupsBy sameContent)[(gs.eraseDupsBy sameContent).findIdx (sameContent g)]? =
        some kept := by
  obtain ⟨other, hother, hhash⟩ := exists_mem_distinct hg
  have hlt : (gs.eraseDupsBy sameContent).findIdx (sameContent g) <
      (gs.eraseDupsBy sameContent).length :=
    List.findIdx_lt_length_of_exists ⟨other, hother, sameContent_iff.mpr hhash⟩
  refine ⟨(gs.eraseDupsBy sameContent)[_], mem_of_mem_distinct (List.getElem_mem hlt), ?_,
    List.getElem?_eq_getElem hlt⟩
  exact sameContent_iff.mp (List.findIdx_getElem (w := hlt))

/-- Geometries have the same place exactly if their digests are the same. -/
lemma slot_eq_iff {gs : List (Geometry α)} {g h : Geometry α} (hg : g ∈ gs) (hh : h ∈ gs) :
    (gs.eraseDupsBy sameContent).findIdx (sameContent g) =
        (gs.eraseDupsBy sameContent).findIdx (sameContent h) ↔ g.hash = h.hash := by
  constructor
  · intro hslot
    obtain ⟨kept, -, hkept, hget⟩ := getElem?_slot hg
    obtain ⟨other, -, hother, hget'⟩ := getElem?_slot hh
    rw [hslot, hget', Option.some.injEq] at hget
    rw [hkept, hother, hget]
  · intro hhash
    have hsame : sameContent g = sameContent h := by
      funext k
      rw [sameContent, sameContent, hhash]
    rw [hsame]

variable {shapes : List (PlacedShape α)} {a b : PlacedShape α} {i j : Nat}

/-- The place of a shape in the scene of some shapes. -/
def slotOf (shapes : List (PlacedShape α)) (a : PlacedShape α) : Nat :=
  ((shapes.map (·.geometry)).eraseDupsBy sameContent).findIdx (sameContent a.geometry)

/-- So have shapes. -/
lemma slotOf_eq_iff (ha : a ∈ shapes) (hb : b ∈ shapes) :
    slotOf shapes a = slotOf shapes b ↔ a.geometry.hash = b.geometry.hash :=
  slot_eq_iff (List.mem_map_of_mem (f := (·.geometry)) ha) (List.mem_map_of_mem (f := (·.geometry)) hb)

variable [Stored α]

/-- In full detail a geometry is what it was. -/
lemma high_build (g : Geometry α) : (DetailSet.build g).high = g := by
  have hconsider : ∀ (s : DetailSet α) candidate, (s.consider candidate).high = s.high := by
    rintro s ⟨level, _ | variant⟩
    · rfl
    · rw [DetailSet.consider]
      split <;> rfl
  have hfold : ∀ (candidates : List (DetailLevel × Option (Geometry α))) (s : DetailSet α),
      (candidates.foldl DetailSet.consider s).high = s.high := by
    intro candidates
    induction candidates with
    | nil => exact fun _ => rfl
    | cons candidate rest ih => exact fun s => (ih _).trans (hconsider s candidate)
  exact hfold _ _

/-! ## Objects and what is stored for them -/

/-- The scene holds an object for each shape. Objects share a place exactly if their shapes have the same
content, and the geometry that is stored in full detail has the content of the shape. -/
structure FaithfulTo (s : Scene α) (shapes : List (PlacedShape α)) : Prop where
  shared : ∀ {i j : Nat} {a b : PlacedShape α} {o p : SceneObject α},
    shapes[i]? = some a → shapes[j]? = some b → s.object? i = some o → s.object? j = some p →
      (o.slot = p.slot ↔ a.geometry.SameContent b.geometry)
  stored : ∀ {i : Nat} {a : PlacedShape α}, shapes[i]? = some a →
    ∃ o set, s.object? i = some o ∧ s.geometry? o.slot = some set ∧
      a.geometry.SameContent set.high

/-- Each shape becomes an object at its place, with the slot of its geometry. -/
lemma object?_build (ha : shapes[i]? = some a) :
    ∃ o, (build shapes).object? i = some o ∧ o.slot = slotOf shapes a := by
  refine ⟨place ((shapes.map (·.geometry)).eraseDupsBy sameContent) a, ?_, rfl⟩
  simp only [build, object?, List.getElem?_toArray, List.getElem?_map, ha, Option.map_some]

/-- In the slot of a shape there is a geometry with the same digest. -/
lemma geometry?_build (ha : a ∈ shapes) :
    ∃ b ∈ shapes, a.geometry.hash = b.geometry.hash ∧ ∃ set,
      Scene.geometry? (build shapes) (slotOf shapes a) = some set ∧ set.high = b.geometry := by
  obtain ⟨kept, hkept, hhash, hget⟩ := getElem?_slot (List.mem_map_of_mem (f := (·.geometry)) ha)
  obtain ⟨b, hb, rfl⟩ := List.mem_map.mp hkept
  refine ⟨b, hb, hhash, DetailSet.build b.geometry, ?_, high_build _⟩
  simp only [build, geometry?, slotOf, List.getElem?_toArray, List.getElem?_map, hget, Option.map_some]

/-- A scene is faithful exactly if digests tell the contents of its shapes apart. -/
lemma faithfulTo_build_iff :
    (build shapes).FaithfulTo shapes ↔ ∀ a ∈ shapes, ∀ b ∈ shapes,
      (a.geometry.hash = b.geometry.hash ↔ a.geometry.SameContent b.geometry) := by
  constructor
  · intro hfaithful a ha b hb
    obtain ⟨i, hi⟩ := List.mem_iff_getElem?.mp ha
    obtain ⟨j, hj⟩ := List.mem_iff_getElem?.mp hb
    obtain ⟨o, ho, hslot⟩ := object?_build hi
    obtain ⟨p, hp, hslot'⟩ := object?_build hj
    rw [← slotOf_eq_iff ha hb, ← hslot, ← hslot', hfaithful.shared hi hj ho hp]
  · intro hapart
    constructor
    · intro i j a b o p hi hj ho hp
      obtain ⟨o', ho', hslot⟩ := object?_build hi
      obtain ⟨p', hp', hslot'⟩ := object?_build hj
      cases ho.symm.trans ho'
      cases hp.symm.trans hp'
      have ha := List.mem_of_getElem? hi
      have hb := List.mem_of_getElem? hj
      rw [hslot, hslot', slotOf_eq_iff ha hb, hapart a ha b hb]
    · intro i a hi
      have ha := List.mem_of_getElem? hi
      obtain ⟨o, ho, hslot⟩ := object?_build hi
      obtain ⟨b, hb, hhash, set, hset, hhigh⟩ := geometry?_build ha
      refine ⟨o, set, ho, hslot ▸ hset, ?_⟩
      rw [hhigh]
      exact (hapart a ha b hb).mp hhash

/-- For accepted shapes whose digests do not collide: equal digests mean the same content, unless one
shape is shifted against the other; the scene is faithful exactly if no shape is shifted against another;
and a shape is shifted against another only if it has more vertices, whose bits are all less than the
number of vertices of the other. -/
theorem build_faithful_iff_not_shifted (haccepted : ∀ a ∈ shapes, a.geometry.Accepted)
    (hno : ∀ a ∈ shapes, ∀ b ∈ shapes, a.geometry.NoCollision b.geometry) :
    (∀ a ∈ shapes, ∀ b ∈ shapes, a.geometry.hash = b.geometry.hash ↔
      a.geometry.SameContent b.geometry ∨
        a.geometry.Shifted b.geometry ∨ b.geometry.Shifted a.geometry) ∧
    ((build shapes).FaithfulTo shapes ↔
      ∀ a ∈ shapes, ∀ b ∈ shapes, ¬ a.geometry.Shifted b.geometry) ∧
    ∀ a ∈ shapes, ∀ b ∈ shapes, a.geometry.Shifted b.geometry →
      a.geometry.vertexCount < b.geometry.vertexCount ∧
        ∀ x ∈ b.geometry.mesh.positionBits.drop a.geometry.mesh.positionBits.length,
          x.toNat < a.geometry.vertexCount := by
  have hhash : ∀ a ∈ shapes, ∀ b ∈ shapes, a.geometry.hash = b.geometry.hash ↔
      a.geometry.SameContent b.geometry ∨
        a.geometry.Shifted b.geometry ∨ b.geometry.Shifted a.geometry := by
    intro a ha b hb
    rw [Geometry.hash_eq_iff (haccepted a ha) (haccepted b hb) (hno a ha b hb),
      Geometry.contentBytes_eq_iff_sameContent]
  refine ⟨hhash, ?_, fun a ha b hb hs => hs.small (haccepted a ha) (haccepted b hb)⟩
  rw [faithfulTo_build_iff]
  constructor
  · intro hapart a ha b hb hs
    exact hs.not_sameContent ((hapart a ha b hb).mp ((hhash a ha b hb).mpr (.inr (.inl hs))))
  · intro hnot a ha b hb
    rw [hhash a ha b hb]
    constructor
    · rintro (hsame | hs | hs)
      · exact hsame
      · exact absurd hs (hnot a ha b hb)
      · exact absurd hs (hnot b hb a ha)
    · exact .inl

/-- A shape in which all vertices lie at the origin. -/
def originShape (entity : EntityId) (vertices triangles : Nat) : PlacedShape Float32 :=
  let m : Mesh Float32 := {
    positions := Array.replicate (3 * vertices) 0
    normals := Array.replicate (3 * vertices) 0
    indices := Array.replicate (3 * triangles) 0 }
  { entity, kind := .wall, name := none, transform := Mat4.identity
    geometry := {
      entity, kind := .wall, primitive := .triangles, mesh := m, color := ⟨0.5, 0.5, 0.5⟩
      bounds := Box.ofPoints m.points
      hash := Digest.hash64 (m.contentBytes .triangles) } }

/-- It is accepted if it has a vertex, but not too many, and a triangle. -/
lemma originShape_accepted (entity : EntityId) {vertices triangles : Nat} (hv : 0 < vertices)
    (hfits : vertices < UInt32.size) (ht : 0 < triangles) :
    (originShape entity vertices triangles).geometry.Accepted := by
  refine ⟨entity, .wall, .triangles, (originShape entity vertices triangles).geometry.mesh,
    ⟨0.5, 0.5, 0.5⟩, ?_⟩
  have hcount : (originShape entity vertices triangles).geometry.mesh.vertexCount = vertices := by
    simp [originShape, Mesh.vertexCount]
  have hfault : Geometry.fault? entity (originShape entity vertices triangles).geometry.mesh = none := by
    rw [Geometry.fault?_eq_none_iff_of_fits (hcount.trans_lt hfits)]
    refine ⟨?_, ?_, ?_, ?_, ?_, ?_⟩
    · simp [originShape, ← Array.size_eq_zero_iff, hv.ne']
    · simp [originShape, ← Array.size_eq_zero_iff, ht.ne']
    · simp [originShape]
    · simp [originShape]
    · intro i hi
      obtain ⟨-, rfl⟩ := Array.mem_replicate.mp hi
      rwa [hcount]
    · intro x hx
      obtain ⟨-, rfl⟩ := Array.mem_replicate.mp hx
      decide
  rw [Geometry.ofMesh, hfault]
  simp [originShape, Geometry.completeNormals]

/-- One vertex and two triangles give the same words as two vertices and one triangle. -/
lemma originShape_shifted (entity other : EntityId) :
    (originShape entity 1 2).geometry.Shifted (originShape other 2 1).geometry := by
  exact ⟨rfl, [0, 0, 0], by simp, rfl, rfl⟩

/-- Both shapes are accepted and differ, but one of them is drawn in the place of the other. -/
theorem originShapes_share_slot :
    (originShape 1 1 2).geometry.Accepted ∧ (originShape 2 2 1).geometry.Accepted ∧
      (originShape 1 1 2).geometry.NoCollision (originShape 2 2 1).geometry ∧
      (originShape 1 1 2).geometry.hash = (originShape 2 2 1).geometry.hash ∧
      ¬ (originShape 1 1 2).geometry.SameContent (originShape 2 2 1).geometry ∧
      ¬ (build [originShape 1 1 2, originShape 2 2 1]).FaithfulTo
        [originShape 1 1 2, originShape 2 2 1] := by
  have hshifted := originShape_shifted 1 2
  have hbytes : (originShape 1 1 2).geometry.contentBytes = (originShape 2 2 1).geometry.contentBytes :=
    Geometry.contentBytes_eq_iff_sameContent.mpr (.inr (.inl hshifted))
  have hhash : (originShape 1 1 2).geometry.hash = (originShape 2 2 1).geometry.hash :=
    congrArg Digest.hash64 hbytes
  refine ⟨originShape_accepted 1 (by decide) (by decide) (by decide),
    originShape_accepted 2 (by decide) (by decide) (by decide), fun _ => hbytes, hhash,
    hshifted.not_sameContent, ?_⟩
  intro hfaithful
  exact hshifted.not_sameContent
    ((faithfulTo_build_iff.mp hfaithful _ (by simp) _ (by simp)).mp hhash)

/-- Three triangles and two at the same place have contents with different digests. -/
lemma hash64_originShape_ne (entity other : EntityId) :
    Digest.hash64 (originShape entity 2 3).geometry.contentBytes ≠
      Digest.hash64 (originShape other 2 2).geometry.contentBytes := by
  change Digest.hash64 (originShape 0 2 3).geometry.contentBytes ≠
    Digest.hash64 (originShape 0 2 2).geometry.contentBytes
  decide +kernel

/-- Of three shapes, of which two have the same content and the third one has another, two geometries are
stored, and each shape is drawn with its own content. -/
theorem build_faithful_of_repeated_shape :
    (build [originShape 1 2 3, originShape 2 2 3, originShape 3 2 2]).FaithfulTo
        [originShape 1 2 3, originShape 2 2 3, originShape 3 2 2] ∧
      (build [originShape 1 2 3, originShape 2 2 3, originShape 3 2 2]).geometries.size = 2 := by
  have haccepted : ∀ a ∈ [originShape 1 2 3, originShape 2 2 3, originShape 3 2 2], a.geometry.Accepted := by
    simp only [List.mem_cons, List.not_mem_nil, or_false, forall_eq_or_imp, forall_eq]
    exact ⟨originShape_accepted 1 (by decide) (by decide) (by decide),
      originShape_accepted 2 (by decide) (by decide) (by decide),
      originShape_accepted 3 (by decide) (by decide) (by decide)⟩
  have hsame (a b : EntityId) :
      (originShape a 2 3).geometry.NoCollision (originShape b 2 3).geometry := fun _ => rfl
  have hapart (a b : EntityId) :
      (originShape a 2 3).geometry.NoCollision (originShape b 2 2).geometry :=
    fun h => absurd h (hash64_originShape_ne a b)
  have hno : ∀ a ∈ [originShape 1 2 3, originShape 2 2 3, originShape 3 2 2],
      ∀ b ∈ [originShape 1 2 3, originShape 2 2 3, originShape 3 2 2], a.geometry.NoCollision b.geometry := by
    simp only [List.mem_cons, List.not_mem_nil, or_false, forall_eq_or_imp, forall_eq]
    exact ⟨⟨hsame 1 1, hsame 1 2, hapart 1 3⟩, ⟨hsame 2 1, hsame 2 2, hapart 2 3⟩,
      fun h => absurd h.symm (hash64_originShape_ne 1 3), fun h => absurd h.symm (hash64_originShape_ne 2 3),
      fun _ => rfl⟩
  constructor
  · refine (build_faithful_iff_not_shifted haccepted hno).2.1.mpr ?_
    -- all three have two vertices, so none of them has a position more than another
    have hirrefl (a b : EntityId) (n k : Nat) :
        ¬ (originShape a 2 n).geometry.Shifted (originShape b 2 k).geometry := by
      rintro ⟨-, extra, hextra, hpositions, -⟩
      exact hextra (List.self_eq_append_right.mp hpositions)
    simp only [List.mem_cons, List.not_mem_nil, or_false, forall_eq_or_imp, forall_eq]
    exact ⟨⟨hirrefl 1 1 3 3, hirrefl 1 2 3 3, hirrefl 1 3 3 2⟩,
      ⟨hirrefl 2 1 3 3, hirrefl 2 2 3 3, hirrefl 2 3 3 2⟩, hirrefl 3 1 2 3, hirrefl 3 2 2 3, hirrefl 3 3 2 2⟩
  · have hshared : sameContent (originShape 2 2 3).geometry (originShape 1 2 3).geometry = true :=
      sameContent_iff.mpr rfl
    have hother : sameContent (originShape 3 2 2).geometry (originShape 1 2 3).geometry = false :=
      Bool.eq_false_iff.mpr fun h => hash64_originShape_ne 1 3 (sameContent_iff.mp h).symm
    simp [build, List.eraseDupsBy_cons, hshared, hother]

end Scene

end BuildingModel
