import BuildingModel.Space.Box
import Mathlib.Data.List.Basic

/-!
# Ordered scalars

What boxes need of their scalars in order to be trusted: an order without gaps that sums and products
respect. Then a linear form takes its greatest and its least value on a box at corners, the box of some
points contains them all, and the transformed box contains the image of every point of the box
(`Box.contains_transformed`).
-/

namespace BuildingModel

open Scalar

/-- Scalars whose sums and products respect their order. Exact numbers do, and so do rounded ones while
nothing overflows, because rounding keeps the order. -/
class OrderedScalar (α : Type) [Scalar α] : Prop where
  protected le_total : ∀ x y : α, x ≤ y ∨ y ≤ x
  protected le_trans : ∀ {x y z : α}, x ≤ y → y ≤ z → x ≤ z
  protected lt_iff_not_le : ∀ {x y : α}, x < y ↔ ¬ y ≤ x
  protected beq_self : ∀ x : α, (x == x) = true
  protected add_le_add : ∀ {x y z w : α}, x ≤ y → z ≤ w → x + z ≤ y + w
  protected sub_le_sub_right : ∀ {x y : α}, x ≤ y → ∀ z : α, x - z ≤ y - z
  protected neg_le_neg : ∀ {x y : α}, x ≤ y → -y ≤ -x
  protected mul_le_mul_left : ∀ {k x y : α}, 0 ≤ k → x ≤ y → k * x ≤ k * y
  protected mul_le_mul_left_of_nonpos : ∀ {k x y : α}, k ≤ 0 → x ≤ y → k * y ≤ k * x
  /-- The last homogeneous coordinate of a point is one, and stays one where nothing is added to it. -/
  zero_form_add_one : ∀ x y z : α, 0 * x + 0 * y + 0 * z + 1 = 1
  protected div_one : ∀ x : α, x / 1 = x

namespace OrderedScalar

variable {α : Type} [Scalar α] [OrderedScalar α] {x y : α}

protected lemma le_refl (x : α) : x ≤ x := by
  rcases OrderedScalar.le_total x x with h | h
  · exact h
  · exact h

/-- What is not less is at least as great. -/
protected lemma not_lt : ¬ x < y ↔ y ≤ x := by rw [OrderedScalar.lt_iff_not_le, Decidable.not_not]

/-- The order is total. -/
protected lemma le_of_not_le (h : ¬ x ≤ y) : y ≤ x := (OrderedScalar.le_total x y).resolve_left h

/-- The least of two is at most the first. -/
lemma least_le_left (x y : α) : least x y ≤ x := by
  rw [least, OrderedScalar.beq_self, if_pos rfl]
  split
  · rename_i h
    exact OrderedScalar.le_of_not_le (OrderedScalar.lt_iff_not_le.mp h)
  · exact OrderedScalar.le_refl x

lemma least_le_right (x y : α) : least x y ≤ y := by
  rw [least, OrderedScalar.beq_self, if_pos rfl]
  split
  · exact OrderedScalar.le_refl y
  · rename_i h
    exact OrderedScalar.not_lt.mp h

/-- The greatest of two is at least the first. -/
lemma le_greatest_left (x y : α) : x ≤ greatest x y := by
  rw [greatest, OrderedScalar.beq_self, if_pos rfl]
  split
  · rename_i h
    exact OrderedScalar.le_of_not_le (OrderedScalar.lt_iff_not_le.mp h)
  · exact OrderedScalar.le_refl x

lemma le_greatest_right (x y : α) : y ≤ greatest x y := by
  rw [greatest, OrderedScalar.beq_self, if_pos rfl]
  split
  · exact OrderedScalar.le_refl y
  · rename_i h
    exact OrderedScalar.not_lt.mp h

/-- A number lies between two others. -/
def Between (low high x : α) : Prop := low ≤ x ∧ x ≤ high

/-- Wider bounds hold what narrower ones do. -/
lemma Between.expand {low high : α} (h : Between low high x) (y : α) :
    Between (least low y) (greatest high y) x :=
  ⟨OrderedScalar.le_trans (least_le_left low y) h.1, OrderedScalar.le_trans h.2 (le_greatest_left high y)⟩

/-- Bounds that have grown by a number hold it. -/
lemma between_expand_self (low high x : α) : Between (least low x) (greatest high x) x :=
  ⟨least_le_right low x, le_greatest_right high x⟩

/-- On an interval a multiple is greatest at the upper end if the factor is not negative, and at the lower
end otherwise. -/
lemma mul_le_mul_end {low high : α} (h : Between low high x) (k : α) :
    k * x ≤ k * (if 0 ≤ k then high else low) := by
  split
  · rename_i hk
    exact OrderedScalar.mul_le_mul_left hk h.2
  · rename_i hk
    exact OrderedScalar.mul_le_mul_left_of_nonpos (OrderedScalar.le_of_not_le hk) h.1

/-- Of all products with a factor, one end of the bounds gives the least. -/
lemma mul_end_le_mul {low high : α} (h : Between low high x) (k : α) :
    k * (if 0 ≤ k then low else high) ≤ k * x := by
  split
  · rename_i hk
    exact OrderedScalar.mul_le_mul_left hk h.1
  · rename_i hk
    exact OrderedScalar.mul_le_mul_left_of_nonpos (OrderedScalar.le_of_not_le hk) h.2

end OrderedScalar

/-! ## Boxes of points -/

namespace Box

open OrderedScalar

variable {α : Type} [Scalar α] {b : Box α} {p q n : Vec3 α}

/-- A box holds a point if each of its coordinates lies between the bounds. -/
lemma contains_iff : b.contains p = true ↔
    Between b.min.x b.max.x p.x ∧ Between b.min.y b.max.y p.y ∧ Between b.min.z b.max.z p.z := by
  simp only [contains, Bool.and_eq_true, decide_eq_true_eq, Between, and_assoc]

/-- The corner of a box that lies farthest in a direction. -/
def farthest (b : Box α) (n : Vec3 α) : Vec3 α :=
  ⟨if 0 ≤ n.x then b.max.x else b.min.x,
    if 0 ≤ n.y then b.max.y else b.min.y,
    if 0 ≤ n.z then b.max.z else b.min.z⟩

/-- The corner of a box that lies farthest against a direction. -/
def nearest (b : Box α) (n : Vec3 α) : Vec3 α :=
  ⟨if 0 ≤ n.x then b.min.x else b.max.x,
    if 0 ≤ n.y then b.min.y else b.max.y,
    if 0 ≤ n.z then b.min.z else b.max.z⟩

/-- The farthest corner is one of the corners. -/
lemma farthest_mem_corners (b : Box α) (n : Vec3 α) : b.farthest n ∈ b.corners := by
  unfold farthest
  split <;> split <;> split <;> simp [corners]

lemma nearest_mem_corners (b : Box α) (n : Vec3 α) : b.nearest n ∈ b.corners := by
  unfold nearest
  split <;> split <;> split <;> simp [corners]

variable [OrderedScalar α]

/-- A box with a point is not empty. -/
lemma isEmpty_eq_false (hp : b.contains p = true) : b.isEmpty = false := by
  obtain ⟨⟨hx, hx'⟩, ⟨hy, hy'⟩, ⟨hz, hz'⟩⟩ := contains_iff.mp hp
  simp only [isEmpty, Bool.or_eq_false_iff, decide_eq_false_iff_not, OrderedScalar.not_lt]
  exact ⟨⟨OrderedScalar.le_trans hx hx', OrderedScalar.le_trans hy hy'⟩, OrderedScalar.le_trans hz hz'⟩

/-- A box that has grown holds what it held. -/
lemma contains_expand (hq : b.contains q = true) (p : Vec3 α) : (b.expand p).contains q = true := by
  obtain ⟨hx, hy, hz⟩ := contains_iff.mp hq
  exact contains_iff.mpr ⟨hx.expand p.x, hy.expand p.y, hz.expand p.z⟩

/-- It holds the point that it has grown by. -/
lemma contains_expand_self (b : Box α) (p : Vec3 α) : (b.expand p).contains p = true :=
  contains_iff.mpr
    ⟨between_expand_self _ _ p.x, between_expand_self _ _ p.y, between_expand_self _ _ p.z⟩

/-- It holds what it held after growing by several points. -/
lemma contains_foldl_expand (ps : List (Vec3 α)) (hq : b.contains q = true) :
    (ps.foldl expand b).contains q = true := by
  induction ps generalizing b with
  | nil => exact hq
  | cons p ps ih => exact ih (contains_expand hq p)

/-- The box of some points holds each of them. -/
lemma contains_ofPoints {ps : List (Vec3 α)} (hp : p ∈ ps) : (ofPoints ps).contains p = true := by
  rw [ofPoints]
  generalize (empty : Box α) = b
  induction ps generalizing b with
  | nil => cases hp
  | cons q ps ih =>
    rcases List.mem_cons.mp hp with rfl | hp
    · exact contains_foldl_expand ps (contains_expand_self b p)
    · exact ih hp (b.expand q)

/-! ## Linear forms on a box -/

/-- No point of a box lies farther than the farthest corner. -/
lemma dot_le_dot_farthest (hp : b.contains p = true) (n : Vec3 α) : n.dot p ≤ n.dot (b.farthest n) := by
  obtain ⟨hx, hy, hz⟩ := contains_iff.mp hp
  apply OrderedScalar.add_le_add
  · exact OrderedScalar.add_le_add (mul_le_mul_end hx n.x) (mul_le_mul_end hy n.y)
  · exact mul_le_mul_end hz n.z

/-- No point of it lies nearer than the nearest one. -/
lemma dot_nearest_le_dot (hp : b.contains p = true) (n : Vec3 α) : n.dot (b.nearest n) ≤ n.dot p := by
  obtain ⟨hx, hy, hz⟩ := contains_iff.mp hp
  apply OrderedScalar.add_le_add
  · exact OrderedScalar.add_le_add (mul_end_le_mul hx n.x) (mul_end_le_mul hy n.y)
  · exact mul_end_le_mul hz n.z

/-- What bounds a linear form at all corners of a box bounds it on the box. -/
lemma between_of_corners {low high t : α} (hp : b.contains p = true)
    (hcorners : ∀ c ∈ b.corners, Between low high (n.dot c + t)) : Between low high (n.dot p + t) := by
  constructor
  · apply OrderedScalar.le_trans (hcorners _ (b.nearest_mem_corners n)).1
    exact OrderedScalar.add_le_add (dot_nearest_le_dot hp n) (OrderedScalar.le_refl t)
  · apply OrderedScalar.le_trans ?_ (hcorners _ (b.farthest_mem_corners n)).2
    exact OrderedScalar.add_le_add (dot_le_dot_farthest hp n) (OrderedScalar.le_refl t)

end Box

/-! ## Affine transformations -/

/-- The last row of the matrix is 0, 0, 0, 1. -/
structure Mat4.IsAffine {α : Type} [Scalar α] (m : Mat4 α) : Prop where
  x : m.x.w = 0
  y : m.y.w = 0
  z : m.z.w = 0
  w : m.w.w = 1

section Affine

open OrderedScalar

variable {α : Type} [Scalar α] [OrderedScalar α] {m : Mat4 α} {b : Box α} {p : Vec3 α}

/-- Each coordinate of the image of a point is a linear form of the point and a constant. -/
lemma Mat4.IsAffine.transformPoint_eq (hm : m.IsAffine) (p : Vec3 α) :
    m.transformPoint p =
      ⟨m.transpose.x.xyz.dot p + m.w.x, m.transpose.y.xyz.dot p + m.w.y,
        m.transpose.z.xyz.dot p + m.w.z⟩ := by
  have hdivide : ∀ v : Vec3 α, v.divideBy 1 = v := by
    intro v
    simp only [Vec3.divideBy, OrderedScalar.div_one]
  simp only [transformPoint, hm.x, hm.y, hm.z, hm.w, zero_form_add_one, hdivide, ite_self]
  rfl

/-- The transformed box contains the image of every point of the box. -/
theorem Box.contains_transformed (hm : m.IsAffine) (hp : b.contains p = true) :
    (b.transformed m).contains (m.transformPoint p) = true := by
  have hcorners : ∀ c ∈ b.corners, (b.transformed m).contains (m.transformPoint c) = true := by
    intro c hc
    rw [transformed, isEmpty_eq_false hp, if_neg Bool.false_ne_true]
    exact contains_ofPoints (List.mem_map_of_mem hc)
  simp only [contains_iff, hm.transformPoint_eq] at hcorners ⊢
  refine ⟨?_, ?_, ?_⟩
  · exact between_of_corners hp fun c hc => (hcorners c hc).1
  · exact between_of_corners hp fun c hc => (hcorners c hc).2.1
  · exact between_of_corners hp fun c hc => (hcorners c hc).2.2

end Affine

end BuildingModel
