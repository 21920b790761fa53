import BuildingModel.Space.Vector

/-!
# Grids

A grid of square cells over the plane. The cells are numbered along a curve that runs to and fro in ever
larger squares: the binary digits of the column and of the row of a cell stand in turn in its number. As
long as columns and rows have at most fifteen digits, no cell of a rectangle has a lower number than the
cell at its least corner or a higher one than the cell at its greatest. Cells beyond that have numbers
too, which wrap around.
-/

namespace BuildingModel

/-- A grid with the point `low` in the corner of its first cell. -/
structure Grid (α : Type) where
  low : Vec2 α
  /-- How many cells go into a unit. -/
  scale : α

namespace Grid

/-- The two halves of a word, with a zero before each of the lowest sixteen digits of either. -/
def spread (w : Int64) : Int64 :=
  let w := (w ||| (w <<< 8)) &&& 0x00FF00FF00FF00FF
  let w := (w ||| (w <<< 4)) &&& 0x0F0F0F0F0F0F0F0F
  let w := (w ||| (w <<< 2)) &&& 0x3333333333333333
  (w ||| (w <<< 1)) &&& 0x5555555555555555

/-- The number of the cell in a column and a row. -/
def number (column row : Int64) : Int32 :=
  let w := spread ((column <<< 32) ||| row)
  ((w >>> 32) ||| (w <<< 1)).toInt32

variable {α : Type} [Scalar α]

/-- The number of the cell of a point whose coordinates are counted from the least corner. A point
without finite coordinates has none. -/
def cell? (g : Grid α) (p : Vec2 α) : Option Int32 := do
  let column ← Scalar.truncate? (p.x * g.scale)
  let row ← Scalar.truncate? (p.y * g.scale)
  return number column row

/-- The least coordinates of some points. -/
def leastCorner (points : List (Vec2 α)) : Vec2 α :=
  points.foldl (fun low p => ⟨Scalar.least low.x p.x, Scalar.least low.y p.y⟩)
    ⟨Scalar.largest, Scalar.largest⟩

/-- The greatest coordinates of some points. -/
def greatestCorner (points : List (Vec2 α)) : Vec2 α :=
  points.foldl (fun high p => ⟨Scalar.greatest high.x p.x, Scalar.greatest high.y p.y⟩)
    ⟨-Scalar.largest, -Scalar.largest⟩

/-- The number of the last column and the last row between the bounds of a grid. -/
def lastCell : α := 32767.0

/-- A grid between two corners. -/
def between (low high : Vec2 α) : Grid α :=
  let size := Scalar.greatest (high.x - low.x) (high.y - low.y)
  ⟨low, if size == 0 then 0 else lastCell / size⟩

/-- A grid over some loops. It starts at the least abscissa of all their points; its other bounds are
those of the first points, as many as the longest loop has. -/
def covering (loops : List (List (Vec2 α))) : Grid α :=
  let first := loops.flatten.take ((loops.map (·.length)).foldl max 0)
  between ⟨(leastCorner loops.flatten).x, (leastCorner first).y⟩ (greatestCorner first)

end Grid

end BuildingModel
