import BuildingModel.Proofs.Number.SignedZero
import Mathlib

/-!
# Positions

The position of a point is the point without the signs of zeros. Points with the same coordinates have the same
position, and the image of a point under a transformation has a position that depends only on that of the point.
-/

namespace BuildingModel

open Scalar

variable {α : Type} [Scalar α]

/-- The position of a point of the plane. -/
def Vec2.position (p : Vec2 α) : Vec2 α := ⟨unsigned p.x, unsigned p.y⟩

/-- The position of a point of space. -/
def Vec3.position (p : Vec3 α) : Vec3 α := p.map unsigned

/-- There are no more signs of zeros to drop. -/
lemma Vec3.position_position (p : Vec3 α) : p.position.position = p.position := by
  simp only [position, map, unsigned_unsigned]

lemma Vec2.position_position (p : Vec2 α) : p.position.position = p.position := by
  simp only [position, unsigned_unsigned]

/-- Two points have the same coordinates if they have the same position, unless some coordinate is no number. -/
lemma Vec2.same_iff {p q : Vec2 Float} : p.same q = true ↔ p.position = q.position ∧ p.same p = true := by
  have hx := beq_iff (x := p.x) (y := q.x)
  have hy := beq_iff (x := p.y) (y := q.y)
  rw [same, same, Bool.and_eq_true, Bool.and_eq_true, hx, hy, position, position, Vec2.mk.injEq]
  exact and_and_and_comm

namespace Vec3

variable {p q : Vec3 Float}

/-- Positions are the same if the coordinates are, but for the signs of zeros. -/
lemma position_eq_iff {p q : Vec3 α} : p.position = q.position ↔
    unsigned p.x = unsigned q.x ∧ unsigned p.y = unsigned q.y ∧ unsigned p.z = unsigned q.z := by
  rw [position, position, map, map, Vec3.mk.injEq]

/-- Rounding respects positions. -/
lemma position_toSingle (h : p.position = q.position) : p.toSingle.position = q.toSingle.position := by
  rw [position_eq_iff] at h ⊢
  exact ⟨unsigned_toSingle h.1, unsigned_toSingle h.2.1, unsigned_toSingle h.2.2⟩

/-- Widening respects them. -/
lemma position_toDouble {p q : Vec3 Float32} (h : p.position = q.position) :
    p.toDouble.position = q.toDouble.position := by
  rw [position_eq_iff] at h ⊢
  exact ⟨unsigned_toDouble h.1, unsigned_toDouble h.2.1, unsigned_toDouble h.2.2⟩

/-- Adding respects them. -/
lemma position_add {r s : Vec3 Float} (h : p.position = q.position) (h' : r.position = s.position) :
    (p + r).position = (q + s).position := by
  rw [position_eq_iff] at h h' ⊢
  exact ⟨unsigned_add h.1 h'.1, unsigned_add h.2.1 h'.2.1, unsigned_add h.2.2 h'.2.2⟩

/-- Scaling respects them. -/
lemma position_scale (p : Vec3 Float) {k l : Float} (h : unsigned k = unsigned l) :
    (p.scale k).position = (p.scale l).position := by
  rw [position_eq_iff]
  exact ⟨unsigned_mul p.x h, unsigned_mul p.y h, unsigned_mul p.z h⟩

/-- Dividing respects them. -/
lemma position_divideBy (h : p.position = q.position) (k : Float) :
    (p.divideBy k).position = (q.divideBy k).position := by
  rw [position_eq_iff] at h ⊢
  exact ⟨unsigned_div h.1 k, unsigned_div h.2.1 k, unsigned_div h.2.2 k⟩

end Vec3

/-- Transforming respects them. -/
lemma Mat4.position_transformPoint (t : Mat4 Float) {p q : Vec3 Float} (h : p.position = q.position) :
    (t.transformPoint p).position = (t.transformPoint q).position := by
  obtain ⟨hx, hy, hz⟩ := Vec3.position_eq_iff.mp h
  have himage : (t.transformVector p + t.w.xyz).position = (t.transformVector q + t.w.xyz).position := by
    apply Vec3.position_add _ rfl
    exact Vec3.position_add (Vec3.position_add (Vec3.position_scale _ hx) (Vec3.position_scale _ hy))
      (Vec3.position_scale _ hz)
  have hlast : unsigned (t.x.w * p.x + t.y.w * p.y + t.z.w * p.z + t.w.w) =
      unsigned (t.x.w * q.x + t.y.w * q.y + t.z.w * q.z + t.w.w) :=
    unsigned_add (unsigned_add (unsigned_add (unsigned_mul _ hx) (unsigned_mul _ hy)) (unsigned_mul _ hz)) rfl
  unfold transformPoint
  dsimp only
  -- A last coordinate that is not zero is the same for both points.
  rcases (unsigned_eq_iff_of_zero zero_beq_zero).mp hlast with hlast | ⟨hp, hq⟩
  · rw [hlast]
    split
    · exact himage
    · exact Vec3.position_divideBy himage _
  · rw [if_pos hp, if_pos hq]
    exact himage

/-- A vector of the plane turned by a right angle is as long as before. -/
lemma Vec2.norm_turned (d : Vec2 Float) : unsigned (Vec3.norm ⟨d.y, -d.x, 0⟩) = unsigned d.norm := by
  apply unsigned_sqrt
  have hzero : (0 : Float) * 0 = 0 := by decide +kernel
  have hcomm : d.y * d.y + d.x * d.x = d.x * d.x + d.y * d.y := add_comm_float _ _
  change unsigned (d.y * d.y + -d.x * -d.x + 0 * 0) = _
  rw [neg_mul_neg_self, hcomm, hzero, unsigned_add_zero]

/-- What is farther apart than a length is so in every direction of measuring. -/
lemma Vec2.not_norm_turned_le {d : Vec2 Float} {least : Float} (h : least < d.norm) :
    ¬ Vec3.norm ⟨d.y, -d.x, 0⟩ ≤ least := by
  rw [le_congr_unsigned d.norm_turned]
  exact Double.not_le_of_lt h

end BuildingModel
