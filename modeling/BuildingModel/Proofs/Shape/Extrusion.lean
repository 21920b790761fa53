import BuildingModel.Proofs.Exchange.Grammar
import BuildingModel.Proofs.Shape.Triangulation
import BuildingModel.Proofs.Shape.WellFormed
import BuildingModel.Shape.Extrusion
import Mathlib

/-!
# Extruded solids

What an extruded solid consists of (`extrude_eq_ok`), and that it is well formed.
-/

namespace BuildingModel.Extrusion

open Exchange

variable {mesh : Mesh Float32} {profile : Profile Float} {t : Triangulation Float} {depth : Float}
  {direction : Option (Vec3 Float)} {placement : Option (Mat4 Float)} {clip : Clipper Float}

/-- A cap over points that its triangles name keeps a mesh well formed. -/
lemma wellFormed_addCap (hmesh : mesh.WellFormed) (height : Float)
    (ht : ∀ i ∈ t.indices, i < t.points.length) : (addCap mesh t height).WellFormed := by
  unfold addCap
  extract_lets bottom normal base withPoints
  have hpoints : withPoints.WellFormedOn (mesh.vertexCount + t.points.length) :=
    Mesh.WellFormedOn.addVertices _ _ t.points ⟨hmesh, rfl⟩
  have hcorner : ∀ i ∈ t.indices, (base + i.toUInt32).toNat < mesh.vertexCount + t.points.length := by
    intro i hi
    apply (mesh.toNat_nextIndex_add_le _).trans_lt
    exact Nat.add_lt_add_left ((toNat_toUInt32_le i).trans_lt (ht i hi)) _
  refine (List.foldlRecOn (motive := Mesh.WellFormedOn (mesh.vertexCount + t.points.length)) _ _ hpoints ?_).1
  rintro m hm ⟨i, j, k⟩ hijk
  obtain ⟨hi, hj, hk⟩ := mem_of_mem_triples hijk
  dsimp only
  split
  · exact hm.addTriangle (hcorner i hi) (hcorner k hk) (hcorner j hj)
  · exact hm.addTriangle (hcorner i hi) (hcorner j hj) (hcorner k hk)

/-- A wall keeps a mesh well formed. -/
lemma wellFormed_addWall (depth : Float) (hmesh : mesh.WellFormed) (edge : Vec2 Float × Vec2 Float) :
    (addWall depth mesh edge).WellFormed := by
  obtain ⟨p, q⟩ := edge
  unfold addWall
  dsimp only
  split
  · exact hmesh
  · have hcorner : ∀ i : UInt32, i.toNat < 4 → (mesh.nextIndex + i).toNat < mesh.vertexCount + 4 := fun i hi =>
      (mesh.toNat_nextIndex_add_le i).trans_lt (Nat.add_lt_add_left hi _)
    have hfirst : mesh.nextIndex.toNat < mesh.vertexCount + 4 :=
      (toNat_toUInt32_le _).trans_lt (Nat.lt_add_of_pos_right (by decide))
    refine (Mesh.WellFormedOn.addTriangle (Mesh.WellFormedOn.addTriangle ?_ hfirst ?_ ?_) hfirst ?_ ?_).1
    · exact (((Mesh.WellFormedOn.addVertex ⟨hmesh, rfl⟩ _ _).addVertex _ _).addVertex _ _).addVertex _ _
    · exact hcorner 1 (by decide)
    · exact hcorner 2 (by decide)
    · exact hcorner 2 (by decide)
    · exact hcorner 3 (by decide)

/-- A prism is well formed if the triangles of its caps name points of the profile. -/
lemma wellFormed_prism (depth : Float) (ht : ∀ i ∈ t.indices, i < t.points.length) :
    (prism profile t depth).WellFormed := by
  have hcaps := wellFormed_addCap (wellFormed_addCap Mesh.wellFormed_empty 0 ht) depth ht
  refine List.foldlRecOn (motive := Mesh.WellFormed) _ _ hcaps ?_
  intro m hm ring hring
  exact List.foldlRecOn (motive := Mesh.WellFormed) _ _ hm fun m' hm' edge _ => wellFormed_addWall depth hm' edge

/-- Inclining keeps a solid well formed. -/
lemma wellFormed_incline (hmesh : mesh.WellFormed) (direction : Vec3 Float) :
    (incline mesh direction).WellFormed := by
  unfold incline
  split
  · split
    · exact (hmesh.transform _).turnOver
    · exact hmesh.transform _
  · exact hmesh

/-- The places that the triangles of a profile name lie in its list of points, though this may hold the points of
holes that are too small to be cut. -/
lemma triangulate_lt_length (hclip : Clipper.InRange clip) (h : profile.triangulate clip = .ok t) :
    ∀ i ∈ t.indices, i < t.points.length := by
  obtain ⟨indices, hindices, ht⟩ := bind_eq_ok_iff.mp h
  cases ht
  have hwithin := (Polygon.triangulateWithHoles_within hclip hindices).2
  have hsub : (profile.outer ++ (Polygon.realHoles profile.holes).flatten).Sublist profile.points :=
    (List.Sublist.refl _).append (List.filter_sublist.flatten)
  exact fun i hi => (hwithin i hi).trans_le hsub.length_le

/-- A solid is a prism that is inclined if there is a direction, and placed if there is a placement. -/
lemma extrude_eq_ok (h : extrude clip profile depth direction placement = .ok mesh) :
    0 < depth ∧ ∃ t, profile.triangulate clip = .ok t ∧ ∃ inclined,
      inclined = direction.elim (prism profile t depth) (incline (prism profile t depth)) ∧
      mesh = placement.elim inclined inclined.transform := by
  unfold extrude at h
  by_cases hdepth : (decide (0 < depth) && depth.isFinite) = true
  · simp only [hdepth, Bool.not_true, Bool.false_eq_true, if_false] at h
    obtain ⟨t, ht, h⟩ := bind_eq_ok_iff.mp h
    refine ⟨of_decide_eq_true (Bool.and_eq_true_iff.mp hdepth).1, t, ht, _, rfl, ?_⟩
    cases direction with
    | none =>
      cases placement with
      | none | some _ =>
        cases h
        rfl
    | some d =>
      dsimp only at h
      split at h
      · cases h
      · cases placement with
        | none | some _ =>
          cases h
          rfl
  · simp only [hdepth, Bool.not_false, if_true] at h
    cases h

/-- A solid is well formed, whatever clipper has cut its caps. -/
lemma wellFormed_extrude (hclip : Clipper.InRange clip)
    (h : extrude clip profile depth direction placement = .ok mesh) : mesh.WellFormed := by
  obtain ⟨-, t, ht, inclined, hinclined, hmesh⟩ := extrude_eq_ok h
  have hprism : (prism profile t depth).WellFormed := wellFormed_prism depth (triangulate_lt_length hclip ht)
  have hwell : inclined.WellFormed := by
    subst hinclined
    cases direction with
    | none => exact hprism
    | some d => exact wellFormed_incline hprism d
  subst hmesh
  cases placement with
  | none => exact hwell
  | some t => exact hwell.transform t

end BuildingModel.Extrusion
