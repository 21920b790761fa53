import BuildingModel.Proofs.Extract.Locality
import BuildingModel.Proofs.Linked.Extension
import BuildingModel.Proofs.Shape.Content
import BuildingModel.Proofs.Shape.Extrusion
import Mathlib

/-!
# Safe shapes

Every method makes well-formed meshes, whatever the linked file is like: there may be missing entities in it and
cycles. This holds with every clipper whose triangles refer to points of the polygon. Merged meshes are well formed
again, so that the check of a product's mesh can fail for two reasons only, as long as its vertices can be numbered:
there is nothing to draw, or some position is not finite.
-/

namespace BuildingModel

open Exchange

variable {mesh : Mesh Float32} {clip : Clipper Float}

/-- A mesh starts with all its points. -/
lemma wellFormedOn_addPoints (points : List (Vec3 Float)) (normal : Vec3 Float) :
    (points.foldl (fun m p => m.addPoint p normal) Mesh.empty).WellFormedOn points.length := by
  have h := Mesh.WellFormedOn.addVertices (fun p => p.toSingle) (fun _ => normal.toSingle) points
    ⟨Mesh.wellFormed_empty, rfl⟩
  rwa [show (Mesh.empty : Mesh Float32).vertexCount = 0 from rfl, Nat.zero_add] at h

/-! ## Faces -/

namespace FaceLoops

/-- What is there when errors are forgotten was there before. -/
lemma eq_ok_of_toOption {ε β : Type} {x : Except ε β} {b : β} (h : x.toOption = some b) : x = .ok b := by
  cases x with
  | error e => cases h
  | ok a =>
    cases h
    rfl

/-- Moving the points of holes keeps the number of their points. -/
lemma realHoles_map {β γ : Type} (f : β → γ) (holes : List (List β)) :
    Polygon.realHoles (holes.map (·.map f)) = (Polygon.realHoles holes).map (·.map f) := by
  rw [Polygon.realHoles, Polygon.realHoles, List.filter_map]
  congr 1
  apply List.filter_congr
  intro hole hhole
  simp

/-- The places that triangles name lie in both lists of points of a face: those in space and those in its plane. -/
lemma lt_length_of_triangulate (hclip : Clipper.InRange clip) {face : FaceLoops} {plane : PlaneFrame Float}
    {indices : List Nat} (h : Polygon.triangulateWithHoles clip (face.outer.map plane.project)
      (face.inner.map (·.map plane.project)) = .ok indices) :
    ∀ i ∈ indices,
      i < (face.outer.map plane.project ++
        (Polygon.realHoles (face.inner.map (·.map plane.project))).flatten).length ∧
      i < (face.outer ++ (Polygon.realHoles face.inner).flatten).length := by
  have hlength : (face.outer.map plane.project ++
      (Polygon.realHoles (face.inner.map (·.map plane.project))).flatten).length =
      (face.outer ++ (Polygon.realHoles face.inner).flatten).length := by
    rw [realHoles_map, ← List.map_flatten, ← List.map_append, List.length_map]
  intro i hi
  have hlt := (Polygon.triangulateWithHoles_within hclip h).2 i hi
  exact ⟨hlt, hlength ▸ hlt⟩

/-- A triangle keeps a mesh well formed, whichever way it is turned. -/
lemma wellFormedOn_addFacing {count : Nat} (flat : Array (Vec2 Float)) (hmesh : mesh.WellFormedOn count)
    {a b c : Nat} (ha : a < count) (hb : b < count) (hc : c < count) :
    (addFacing flat mesh (a, b, c)).WellFormedOn count := by
  have ha := (toNat_toUInt32_le a).trans_lt ha
  have hb := (toNat_toUInt32_le b).trans_lt hb
  have hc := (toNat_toUInt32_le c).trans_lt hc
  unfold addFacing
  dsimp only
  split
  · exact hmesh
  · split
    · exact hmesh.addTriangle ha hb hc
    · exact hmesh.addTriangle ha hc hb

/-- The mesh of a face is well formed. -/
lemma wellFormed_mesh? (hclip : Clipper.InRange clip) {face : FaceLoops} (h : face.mesh? clip = some mesh) :
    mesh.WellFormed := by
  unfold mesh? at h
  obtain ⟨origin, -, h⟩ := Option.bind_eq_some_iff.mp h
  dsimp only at h
  split at h
  · cases h
  · obtain ⟨indices, hindices, h⟩ := Option.bind_eq_some_iff.mp h
    split at h
    · cases h
    · cases h
      have hlt := lt_length_of_triangulate hclip (eq_ok_of_toOption hindices)
      refine (List.foldlRecOn (motive := Mesh.WellFormedOn _) _ _ (wellFormedOn_addPoints _ _) ?_).1
      rintro m hm ⟨a, b, c⟩ habc
      obtain ⟨ha, hb, hc⟩ := mem_of_mem_triples habc
      exact wellFormedOn_addFacing _ hm (hlt a ha).2 (hlt b hb).2 (hlt c hc).2

end FaceLoops

namespace LinkedModel

variable {m : LinkedModel} {item : LinkedEntity}

/-- The mesh of an item of plane faces is well formed. -/
lemma wellFormed_facesMesh (hclip : Clipper.InRange clip) (h : m.facesMesh clip item = .ok mesh) :
    mesh.WellFormed := by
  obtain ⟨faces, -, h⟩ := bind_eq_ok_iff.mp h
  dsimp only at h
  split at h
  · cases h
  · cases h
    refine List.foldlRecOn (motive := Mesh.WellFormed) _ _ Mesh.wellFormed_empty ?_
    intro merged hmerged part hpart
    obtain ⟨face, -, hface⟩ := List.mem_filterMap.mp hpart
    exact hmerged.merge (FaceLoops.wellFormed_mesh? hclip hface)

/-! ## Sets of triangles -/

/-- The numbers of a triangle are those of points. -/
lemma addNumbered_eq_ok {id : EntityId} {count : Nat} {m m' : Mesh Float32} {triangle : LinkedValue}
    (h : addNumbered id count m triangle = .ok m') :
    ∃ a b c : UInt32, (a.toNat < count ∧ b.toNat < count ∧ c.toNat < count) ∧ m' = m.addTriangle a b c := by
  unfold addNumbered at h
  split at h
  · rename_i a b c hcorners
    split at h
    · cases h
    · rename_i hfind
      cases h
      have hplace : ∀ i ∈ [a, b, c], (i.toInt.toNat - 1).toUInt32.toNat < count := by
        intro i hi
        have hin := List.find?_eq_none.mp hfind i hi
        simp only [Bool.or_eq_true, decide_eq_true_eq, not_or, not_lt] at hin
        exact (toNat_toUInt32_le _).trans_lt (by omega)
      exact ⟨_, _, _, ⟨hplace a (by simp), hplace b (by simp), hplace c (by simp)⟩, rfl⟩
  · cases h

/-- Numbered triangles keep a mesh over their points well formed. -/
lemma wellFormedOn_foldlM_addNumbered {id : EntityId} {count : Nat} {triangles : List LinkedValue} {m : Mesh Float32}
    (hm : m.WellFormedOn count) (h : triangles.foldlM (addNumbered id count) m = .ok mesh) :
    mesh.WellFormedOn count := by
  refine foldlM_invariant (P := (·.WellFormedOn count)) ?_ hm h
  intro m triangle _ m' hm hm'
  obtain ⟨a, b, c, ⟨ha, hb, hc⟩, rfl⟩ := addNumbered_eq_ok hm'
  exact hm.addTriangle ha hb hc

/-- The mesh of a set of triangles is well formed. -/
lemma wellFormed_faceSetMesh (h : m.faceSetMesh item = .ok mesh) : mesh.WellFormed := by
  obtain ⟨list, -, h⟩ := bind_eq_ok_iff.mp h
  obtain ⟨points, -, h⟩ := bind_eq_ok_iff.mp h
  obtain ⟨triangles, -, h⟩ := bind_eq_ok_iff.mp h
  obtain ⟨complete, hcomplete, h⟩ := bind_eq_ok_iff.mp h
  cases h
  exact (wellFormedOn_foldlM_addNumbered (wellFormedOn_addPoints points 0) hcomplete).1.recomputeNormals

/-! ## Curves -/

/-- The mesh of a curve is well formed. -/
lemma wellFormed_curveMesh (h : m.curveMesh item = .ok mesh) : mesh.WellFormed := by
  obtain ⟨points, -, h⟩ := bind_eq_ok_iff.mp h
  dsimp only at h
  split at h
  · cases h
  · cases h
    refine (List.foldlRecOn (motive := Mesh.WellFormedOn points.length) _ _ (wellFormedOn_addPoints points _) ?_).1
    intro m hm i hi
    have hi := List.mem_range.mp hi
    have hnext : (i + 1).toUInt32.toNat < points.length := (toNat_toUInt32_le _).trans_lt (by omega)
    exact hm.addTriangle ((toNat_toUInt32_le _).trans_lt (by omega)) hnext hnext

/-- The mesh of an extruded area is well formed. -/
lemma wellFormed_extrusionMesh (hclip : Clipper.InRange clip) (h : m.extrusionMesh clip item = .ok mesh) :
    mesh.WellFormed := by
  obtain ⟨area, -, h⟩ := bind_eq_ok_iff.mp h
  obtain ⟨profile, -, h⟩ := bind_eq_ok_iff.mp h
  obtain ⟨position, -, h⟩ := bind_eq_ok_iff.mp h
  obtain ⟨direction, -, h⟩ := bind_eq_ok_iff.mp h
  obtain ⟨depth, -, h⟩ := bind_eq_ok_iff.mp h
  exact Extrusion.wellFormed_extrude hclip h

end LinkedModel

/-! ## Tables and products -/

/-- Every method of a table is one of this library, with a clipper whose triangles refer to points. -/
def MethodTable.Known (table : MethodTable) : Prop :=
  ∀ entry ∈ table.entries, ∃ clip, Clipper.InRange clip ∧ entry.2 ∈ ShapeMethod.all clip

/-- The methods of this library make well-formed meshes. -/
lemma ShapeMethod.wellFormed_of_mem_all (hclip : Clipper.InRange clip) {method : ShapeMethod}
    (hmethod : method ∈ all clip) {m : LinkedModel} {item : LinkedEntity} (h : method.mesh m item = .ok mesh) :
    mesh.WellFormed := by
  simp only [all, List.mem_cons, List.not_mem_nil, or_false] at hmethod
  rcases hmethod with rfl | rfl | rfl | rfl
  · exact LinkedModel.wellFormed_extrusionMesh hclip h
  · exact LinkedModel.wellFormed_faceSetMesh h
  · exact LinkedModel.wellFormed_facesMesh hclip h
  · exact LinkedModel.wellFormed_curveMesh h

/-- An item of another kind is not made. -/
lemma MethodTable.process_of_not_supports {table : MethodTable} {m : LinkedModel} {item : LinkedEntity}
    (h : (!table.supports item.kind) = true) : table.process m item = .error (.unsupported item.kind) := by
  rw [supports, Bool.not_eq_true', Option.isSome_eq_false_iff, Option.isNone_iff_eq_none] at h
  rw [process, h]

/-- What an item can do: it is of another kind, its triangles or lines are taken in, it overflows, or it fails in
another way. -/
lemma Gathered.add_cases (table : MethodTable) (m : LinkedModel) (g : Gathered) (item : LinkedEntity) :
    (table.process m item = .error (.unsupported item.kind) ∧ g.add table m item = .ok g) ∨
    (∃ made, table.process m item = .ok (made, .triangles) ∧
      g.add table m item = .ok { g with triangles := g.triangles.merge made }) ∨
    (∃ made, table.process m item = .ok (made, .lines) ∧
      g.add table m item = .ok { g with lines := g.lines.merge made }) ∨
    (table.process m item = .error .overflow ∧ g.add table m item = .error .overflow) ∨
    ∃ error, error ≠ .overflow ∧ table.process m item = .error error ∧
      g.add table m item = .ok { g with error := some (g.error.getD error) } := by
  rw [add]
  split
  · rename_i hkind
    exact .inl ⟨MethodTable.process_of_not_supports hkind, rfl⟩
  · split
    · rename_i made hmade
      exact .inr (.inl ⟨made, hmade, rfl⟩)
    · rename_i made hmade
      exact .inr (.inr (.inl ⟨made, hmade, rfl⟩))
    · rename_i error herror
      by_cases hover : error = .overflow
      · rw [if_pos hover, herror, hover]
        exact .inr (.inr (.inr (.inl ⟨rfl, rfl⟩)))
      · rw [if_neg hover]
        exact .inr (.inr (.inr (.inr ⟨error, hover, herror, rfl⟩)))

namespace LinkedModel

variable {m : LinkedModel} {table : MethodTable} (htable : table.Known) {e : LinkedEntity} {primitive : Primitive}
include htable

/-- A table of such methods makes well-formed meshes. -/
lemma wellFormed_process (h : table.process m e = .ok (mesh, primitive)) : mesh.WellFormed := by
  rw [MethodTable.process] at h
  cases hmethod : table.method? e.kind with
  | none =>
    rw [hmethod] at h
    cases h
  | some method =>
    rw [hmethod] at h
    obtain ⟨made, hmade, h⟩ := bind_eq_ok_iff.mp h
    cases h
    obtain ⟨clip, hclip, hall⟩ := htable _ (MethodTable.mem_entries_of_method? hmethod)
    exact ShapeMethod.wellFormed_of_mem_all hclip hall hmade

/-- What the items of a representation give is well formed. -/
lemma wellFormed_gather {representation : LinkedEntity} {error : Option ShapeError} {g : Gathered}
    (h : m.gather table representation error = .ok g) : g.triangles.WellFormed ∧ g.lines.WellFormed := by
  refine foldlM_invariant (P := fun g : Gathered => g.triangles.WellFormed ∧ g.lines.WellFormed) ?_
    ⟨Mesh.wellFormed_empty, Mesh.wellFormed_empty⟩ h
  rintro g item - g' ⟨htriangles, hlines⟩ hadd
  rcases Gathered.add_cases table m g item with
    ⟨-, heq⟩ | ⟨made, hmade, heq⟩ | ⟨made, hmade, heq⟩ | ⟨-, heq⟩ | ⟨error, -, -, heq⟩ <;>
    rw [heq] at hadd <;> cases hadd
  · exact ⟨htriangles, hlines⟩
  · exact ⟨htriangles.merge (wellFormed_process htable hmade), hlines⟩
  · exact ⟨htriangles, hlines.merge (wellFormed_process htable hmade)⟩
  · exact ⟨htriangles, hlines⟩

/-- The mesh of the first representation that gives one is well formed. -/
lemma wellFormed_representedMesh {product : EntityId} {representations : List LinkedEntity}
    {error : Option ShapeError}
    (h : m.representedMesh table product representations error = .ok (mesh, primitive)) : mesh.WellFormed := by
  induction representations generalizing error with
  | nil => cases h
  | cons representation rest ih =>
    rw [representedMesh] at h
    obtain ⟨g, hg, h⟩ := bind_eq_ok_iff.mp h
    have hgather := wellFormed_gather htable hg
    split at h
    · cases h
      exact hgather.1
    · split at h
      · cases h
        exact hgather.2
      · exact ih h

/-- The mesh of a product is well formed. -/
lemma wellFormed_productMesh (h : m.productMesh table e = .ok (mesh, primitive)) : mesh.WellFormed := by
  obtain ⟨shape, -, h⟩ := bind_eq_ok_iff.mp h
  obtain ⟨⟨⟩, -, h⟩ := bind_eq_ok_iff.mp h
  exact wellFormed_representedMesh htable h

/-- The mesh of an entity is well formed, whichever way it is made. -/
lemma wellFormed_placedMesh {strategy : Strategy} {transform : Mat4 Float}
    (h : m.placedMesh table strategy e = .ok ((mesh, primitive), transform)) : mesh.WellFormed := by
  cases strategy with
  | item =>
    obtain ⟨made, hmade, h⟩ := bind_eq_ok_iff.mp h
    cases h
    exact wellFormed_process htable hmade
  | product =>
    obtain ⟨place, -, h⟩ := bind_eq_ok_iff.mp h
    obtain ⟨made, hmade, h⟩ := bind_eq_ok_iff.mp h
    cases h
    exact wellFormed_productMesh htable hmade

end LinkedModel

/-- The standard table knows its methods, because ear clipping gives triangles between points. -/
lemma MethodTable.known_standard : standard.Known := by
  have hregister : ∀ (table : MethodTable) (method : ShapeMethod), table.Known → method ∈ ShapeMethod.all earClip →
      (table.register method).Known := by
    intro table method htable hmethod entry hentry
    rcases List.mem_append.mp hentry with hnew | hold
    · obtain ⟨kind, -, rfl⟩ := List.mem_map.mp hnew
      exact ⟨earClip, earClip_inRange, hmethod⟩
    · exact htable entry (List.mem_filter.mp hold).1
  exact List.foldlRecOn (motive := MethodTable.Known) _ _ (fun entry hentry => by cases hentry)
    fun table htable method hmethod => hregister table method htable hmethod

/-! ## The check of a shape -/

/-- A well-formed mesh is empty, or some position is not finite, if the check refuses it. -/
lemma Geometry.fault?_of_wellFormed {α : Type} [Stored α] {m : Mesh α} (hm : m.WellFormed)
    (hfits : m.vertexCount < UInt32.size) {entity : EntityId} {fault : ShapeError} (h : fault? entity m = some fault) :
    fault = .emptyMesh s!"#{entity}" ∨ fault = .invalidMesh s!"#{entity}: non-finite position" := by
  have hlengths : (decide (m.positions.size % 3 ≠ 0) || decide (m.indices.size % 3 ≠ 0)) = false := by
    rw [Nat.mod_eq_zero_of_dvd hm.positions, Nat.mod_eq_zero_of_dvd hm.indices]
    rfl
  have hrange : m.indices.find? (m.vertexCount.toUInt32 ≤ ·) = none := by
    rw [Array.find?_eq_none]
    intro i hi
    simpa using (lt_toUInt32_iff hfits).mpr (hm.corners i hi)
  unfold fault? at h
  dsimp only at h
  rw [hlengths, hrange] at h
  dsimp only at h
  split at h
  · cases h
    exact .inl rfl
  · split at h
    · rename_i hfalse
      cases hfalse
    · split at h
      · cases h
        exact .inr rfl
      · cases h

namespace LinkedModel

variable {m : LinkedModel} {table : MethodTable} {e : LinkedEntity} {primitive : Primitive}

/-- Bringing a mesh to metres keeps it well formed. -/
lemma wellFormed_meshInMetres (hmesh : mesh.WellFormed) (unit : Float) : (meshInMetres mesh unit).WellFormed := by
  rw [meshInMetres]
  split
  · exact hmesh
  · exact hmesh.scale _

/-- Bringing a mesh to metres keeps the number of its vertices. -/
lemma vertexCount_meshInMetres (mesh : Mesh Float32) (unit : Float) :
    (meshInMetres mesh unit).vertexCount = mesh.vertexCount := by
  rw [meshInMetres]
  split
  · rfl
  · rw [Mesh.scale]
    split
    · rfl
    · rw [Mesh.vertexCount, Array.size_map, Mesh.vertexCount]

/-- If there is a mesh, its check alone can fail. -/
lemma placedShape_eq_error {unit : Float} {rule : ExtractionRule} {transform : Mat4 Float} {error : ShapeError}
    (hplaced : m.placedMesh table rule.strategy e = .ok ((mesh, primitive), transform))
    (h : m.placedShape table unit e rule = .error error) :
    Geometry.fault? e.id (meshInMetres mesh unit) = some error := by
  rw [placedShape, hplaced] at h
  cases hfault : Geometry.fault? e.id (meshInMetres mesh unit) with
  | none =>
    simp only [bind, Except.bind, Geometry.ofMesh, hfault] at h
    cases h
  | some fault =>
    simp only [bind, Except.bind, Geometry.ofMesh, hfault] at h
    cases h
    rfl

/-- What holds of all shapes that a table of methods makes from a linked file. -/
structure SafeShapes (m : LinkedModel) (table : MethodTable) : Prop where
  /-- Every link leads to an entity. -/
  links : ∀ e ∈ m.entityList, ∀ h ∈ e.links, ∃ target, m.get? h = some target
  /-- Ear clipping gives triples of places in the list of all points. -/
  clipper : Clipper.InRange (earClip : Clipper Float)
  /-- So the triangles of a face name points of the face, in space and in the plane that the face is laid into. -/
  faces : ∀ clip, Clipper.InRange clip → ∀ (face : FaceLoops) (plane : PlaneFrame Float) (indices : List Nat),
    Polygon.triangulateWithHoles clip (face.outer.map plane.project) (face.inner.map (·.map plane.project)) =
      .ok indices →
    ∀ i ∈ indices,
      i < (face.outer.map plane.project ++
        (Polygon.realHoles (face.inner.map (·.map plane.project))).flatten).length ∧
      i < (face.outer ++ (Polygon.realHoles face.inner).flatten).length
  items : ∀ e mesh primitive, table.process m e = .ok (mesh, primitive) → mesh.WellFormed
  products : ∀ e mesh primitive, m.productMesh table e = .ok (mesh, primitive) → mesh.WellFormed
  /-- A mesh of fewer than `2 ^ 32` vertices is refused only if there is nothing in it or a position is not finite. -/
  checked : ∀ e rule unit mesh primitive transform error,
    m.placedMesh table rule.strategy e = .ok ((mesh, primitive), transform) → mesh.vertexCount < UInt32.size →
    m.placedShape table unit e rule = .error error →
      error = .emptyMesh s!"#{e.id}" ∨ error = .invalidMesh s!"#{e.id}: non-finite position"

end LinkedModel

/-- Shapes are safe in every linked file, also if entities are missing or refer to each other in circles. The table of
every file that is read is sound (`ExchangeFile.sound_parse`). -/
theorem ExchangeFile.link_safeShapes (file : ExchangeFile) (hfile : file.table.Sound) (table : MethodTable)
    (htable : table.Known) : file.link.SafeShapes table where
  links e he h hh := by
    have hfresh : file.Fresh [] := by
      refine ⟨hfile, ?_, fun _ _ a ha => by cases ha⟩
      rw [List.map_nil, List.append_nil]
      exact hfile.nodup
    obtain ⟨i, hi⟩ := List.getElem?_of_mem he
    rw [LinkedModel.entityList, Array.getElem?_toList] at hi
    exact hfresh.partOf.closed i e hi h hh
  clipper := earClip_inRange
  faces clip hclip face plane indices hindices := FaceLoops.lt_length_of_triangulate hclip hindices
  items e mesh primitive hmesh := LinkedModel.wellFormed_process htable hmesh
  products e mesh primitive hmesh := LinkedModel.wellFormed_productMesh htable hmesh
  checked e rule unit mesh primitive transform error hplaced hfits herror := by
    have hmesh := LinkedModel.wellFormed_meshInMetres (LinkedModel.wellFormed_placedMesh htable hplaced) unit
    rw [← LinkedModel.vertexCount_meshInMetres mesh unit] at hfits
    exact Geometry.fault?_of_wellFormed hmesh hfits (LinkedModel.placedShape_eq_error hplaced herror)

/-- A wall shown by two lines. One of them leads back to the wall, and the representation has no context. -/
def entangledWall : ExchangeFile :=
  ⟨{}, [⟨1, .cartesianPoint, [.list [.integer 0, .integer 0]]⟩,
      ⟨2, .cartesianPoint, [.list [.integer 1, .integer 0]]⟩,
      ⟨3, .polyline, [.list [.ref 1, .ref 2]]⟩,
      ⟨4, .polyline, [.list [.ref 1, .ref 7]]⟩,
      ⟨5, .shapeRepresentation, [.ref 99, .text "Body", .omitted, .list [.ref 4, .ref 3]]⟩,
      ⟨6, .productDefinitionShape, [.omitted, .omitted, .list [.ref 5]]⟩,
      ⟨7, .wall, [.omitted, .omitted, .omitted, .omitted, .omitted, .omitted, .ref 6]⟩].foldl
        EntityTable.push {}, .empty 50⟩

/-- The entities of the linked file. -/
lemma entangledWall_entities : entangledWall.link.entities =
    #[⟨1, .cartesianPoint, [.list [.integer 0, .integer 0]]⟩,
      ⟨2, .cartesianPoint, [.list [.integer 1, .integer 0]]⟩,
      ⟨3, .polyline, [.list [.link 0, .link 1]]⟩,
      ⟨4, .polyline, [.list [.link 0, .link 6]]⟩,
      ⟨5, .shapeRepresentation, [.dangling 99, .text "Body", .omitted, .list [.link 3, .link 2]]⟩,
      ⟨6, .productDefinitionShape, [.omitted, .omitted, .list [.link 4]]⟩,
      ⟨7, .wall, [.omitted, .omitted, .omitted, .omitted, .omitted, .omitted, .link 5]⟩] := by
  simp [entangledWall, ExchangeFile.link, EntityTable.push, Entity.link, Value.linkAll, Value.link,
    EntityTable.position?, Std.HashMap.getElem_insert]

/-- The shapes of the entangled wall are safe, and it is drawn with lines. -/
theorem link_safeShapes_entangledWall :
    entangledWall.table.Sound ∧ MethodTable.standard.Known ∧
    (∃ wall mesh, entangledWall.link.get? 6 = some wall ∧
      entangledWall.link.productMesh .standard wall = .ok (mesh, .lines)) ∧
    entangledWall.link.SafeShapes .standard := by
  have hsound : entangledWall.table.Sound := EntityTable.sound_empty.pushAll _ (by decide)
  refine ⟨hsound, MethodTable.known_standard, ?_,
    ExchangeFile.link_safeShapes entangledWall hsound .standard MethodTable.known_standard⟩
  have hentities := entangledWall_entities
  generalize entangledWall.link = m at hentities
  obtain ⟨header, entities, index, status, consumed, log⟩ := m
  cases hentities
  exact ⟨_, _, rfl, rfl⟩

end BuildingModel
