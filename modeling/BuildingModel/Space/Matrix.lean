import BuildingModel.Space.Vector

/-!
# Transformations of space

Four by four matrices that act on homogeneous coordinates, stored by columns: the images of the three
axes and of the origin.
-/

namespace BuildingModel

/-- A transformation of space, by its columns. -/
structure Mat4 (α : Type) where
  x : Vec4 α
  y : Vec4 α
  z : Vec4 α
  w : Vec4 α
deriving DecidableEq, Repr, Inhabited

namespace Mat4

variable {α : Type} [Scalar α]

/-- The transformation that moves nothing. -/
def identity : Mat4 α := ⟨⟨1, 0, 0, 0⟩, ⟨0, 1, 0, 0⟩, ⟨0, 0, 1, 0⟩, ⟨0, 0, 0, 1⟩⟩

/-- The matrix with exchanged rows and columns. -/
def transpose (m : Mat4 α) : Mat4 α :=
  ⟨⟨m.x.x, m.y.x, m.z.x, m.w.x⟩, ⟨m.x.y, m.y.y, m.z.y, m.w.y⟩, ⟨m.x.z, m.y.z, m.z.z, m.w.z⟩,
    ⟨m.x.w, m.y.w, m.z.w, m.w.w⟩⟩

/-- The image of a vector in homogeneous coordinates. -/
def mulVec (m : Mat4 α) (v : Vec4 α) : Vec4 α :=
  m.x.scale v.x + m.y.scale v.y + m.z.scale v.z + m.w.scale v.w

/-- First `b`, then `a`. -/
def mul (a b : Mat4 α) : Mat4 α := ⟨a.mulVec b.x, a.mulVec b.y, a.mulVec b.z, a.mulVec b.w⟩

instance : Mul (Mat4 α) := ⟨mul⟩

/-- The image of a vector: the origin does not move it. -/
def transformVector (m : Mat4 α) (v : Vec3 α) : Vec3 α :=
  m.x.xyz.scale v.x + m.y.xyz.scale v.y + m.z.xyz.scale v.z

/-- The image of a point, divided by its last homogeneous coordinate unless that is zero. -/
def transformPoint (m : Mat4 α) (p : Vec3 α) : Vec3 α :=
  let image := m.transformVector p + m.w.xyz
  let n := m.x.w * p.x + m.y.w * p.y + m.z.w * p.z + m.w.w
  if n == 0 then image else image.divideBy n

/-- The transformation with given axes and origin. -/
def ofFrame (x y z origin : Vec3 α) : Mat4 α :=
  ⟨⟨x.x, x.y, x.z, 0⟩, ⟨y.x, y.y, y.z, 0⟩, ⟨z.x, z.y, z.z, 0⟩, ⟨origin.x, origin.y, origin.z, 1⟩⟩

/-- Move everything by a vector. -/
def shift (v : Vec3 α) : Mat4 α := ofFrame Vec3.unitX Vec3.unitY Vec3.unitZ v

/-- The signed determinant of three rows and columns, written out as the cofactor of an even place. -/
def minor (a b c d e f g h i : α) : α :=
  a * e * i - a * f * h - d * b * i + d * c * h + g * b * f - g * c * e

/-- The same for an odd place, with all signs changed. -/
def negMinor (a b c d e f g h i : α) : α :=
  -a * e * i + a * f * h + d * b * i - d * c * h - g * b * f + g * c * e

/-- The cofactors of the first column, which give the determinant. -/
def firstCofactors (m : Mat4 α) : Vec4 α :=
  ⟨minor m.y.y m.y.z m.y.w m.z.y m.z.z m.z.w m.w.y m.w.z m.w.w,
    negMinor m.y.x m.y.z m.y.w m.z.x m.z.z m.z.w m.w.x m.w.z m.w.w,
    minor m.y.x m.y.y m.y.w m.z.x m.z.y m.z.w m.w.x m.w.y m.w.w,
    negMinor m.y.x m.y.y m.y.z m.z.x m.z.y m.z.z m.w.x m.w.y m.w.z⟩

/-- The determinant. -/
def det (m : Mat4 α) : α :=
  let c := m.firstCofactors
  m.x.x * c.x + m.x.y * c.y + m.x.z * c.z + m.x.w * c.w

/-- The inverse by cofactors, unless the determinant is zero. -/
def inverse? (m : Mat4 α) : Option (Mat4 α) :=
  let d := m.det
  if d == 0 then none
  else
    let c := m.firstCofactors
    let k := 1 / d
    some
      ⟨Vec4.scale ⟨c.x,
          negMinor m.x.y m.x.z m.x.w m.z.y m.z.z m.z.w m.w.y m.w.z m.w.w,
          minor m.x.y m.x.z m.x.w m.y.y m.y.z m.y.w m.w.y m.w.z m.w.w,
          negMinor m.x.y m.x.z m.x.w m.y.y m.y.z m.y.w m.z.y m.z.z m.z.w⟩ k,
        Vec4.scale ⟨c.y,
          minor m.x.x m.x.z m.x.w m.z.x m.z.z m.z.w m.w.x m.w.z m.w.w,
          negMinor m.x.x m.x.z m.x.w m.y.x m.y.z m.y.w m.w.x m.w.z m.w.w,
          minor m.x.x m.x.z m.x.w m.y.x m.y.z m.y.w m.z.x m.z.z m.z.w⟩ k,
        Vec4.scale ⟨c.z,
          negMinor m.x.x m.x.y m.x.w m.z.x m.z.y m.z.w m.w.x m.w.y m.w.w,
          minor m.x.x m.x.y m.x.w m.y.x m.y.y m.y.w m.w.x m.w.y m.w.w,
          negMinor m.x.x m.x.y m.x.w m.y.x m.y.y m.y.w m.z.x m.z.y m.z.w⟩ k,
        Vec4.scale ⟨c.w,
          minor m.x.x m.x.y m.x.z m.z.x m.z.y m.z.z m.w.x m.w.y m.w.z,
          negMinor m.x.x m.x.y m.x.z m.y.x m.y.y m.y.z m.w.x m.w.y m.w.z,
          minor m.x.x m.x.y m.x.z m.y.x m.y.y m.y.z m.z.x m.z.y m.z.z⟩ k⟩

/-- Apply a function to each entry. -/
def map {β : Type} (f : α → β) (m : Mat4 α) : Mat4 β := ⟨m.x.map f, m.y.map f, m.z.map f, m.w.map f⟩

/-- The entries row by row. -/
def rows (m : Mat4 α) : List α :=
  let t := m.transpose
  t.x.toList ++ t.y.toList ++ t.z.toList ++ t.w.toList

end Mat4

end BuildingModel
