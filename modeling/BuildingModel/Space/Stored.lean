import BuildingModel.Space.Vector

/-!
# Stored coordinates

What the buffers of a shape ask of their scalars beyond arithmetic: a fixed pattern of bits, a place on
an integer grid, and sums that are kept with more precision than the coordinates have.
-/

namespace BuildingModel

/-- Scalars that can stand in the buffers of a shape. -/
class Stored (α : Type) extends Scalar α where
  /-- The bits under which a number is stored. -/
  bits : α → UInt32
  /-- The greatest integer up to a number, within the range of the grid. -/
  gridIndex : α → Int32
  /-- Sums of vectors. -/
  Sum : Type
  noSum : Sum
  /-- Add a vector to a sum. -/
  addTo : Sum → Vec3 α → Sum
  /-- The middle of some points, by their sum and their number. -/
  mean : Sum → UInt32 → Vec3 α
  /-- The direction of a sum; up if it has none. -/
  direction : Sum → Vec3 α

/-- The sum of some vectors, in the order in which they are given. -/
def Stored.sumOf {α : Type} [Stored α] (vs : List (Vec3 α)) : Stored.Sum α := vs.foldl Stored.addTo Stored.noSum

instance : Stored Float32 where
  bits := Float32.toBits
  gridIndex x := x.floor.toInt32
  Sum := Vec3 Float
  noSum := 0
  addTo sum v := sum + v.toDouble
  mean sum count := (sum.divideBy count.toFloat).toSingle
  direction sum := ((sum.normalize? 1e-12).getD Vec3.unitZ).toSingle

end BuildingModel
