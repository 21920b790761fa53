import Std.Data.HashMap
import BuildingModel.Number.Shortest
import BuildingModel.Shape.Geometry
import BuildingModel.View.Error

/-!
# Levels of detail

Simpler variants of a geometry for objects that are far away. For two levels the vertices are gathered
in the cells of a grid, and each cell becomes one vertex; the last level shows the edges of the box. A
variant is kept only if it is simpler than the one before, so that detail never grows with distance.
-/

namespace BuildingModel

/-- How much detail is drawn. -/
inductive DetailLevel where
  | high
  | medium
  | low
  | minimal
deriving DecidableEq, Repr, Inhabited

namespace DetailLevel

/-- All levels, the most detailed first. -/
def all : List DetailLevel := [.high, .medium, .low, .minimal]

/-- The place among all levels. -/
def rank : DetailLevel → Nat
  | .high => 0
  | .medium => 1
  | .low => 2
  | .minimal => 3

/-- The name of a level. -/
def name : DetailLevel → String
  | .high => "high"
  | .medium => "medium"
  | .low => "low"
  | .minimal => "minimal"

end DetailLevel

/-- The distances from which on the simpler levels are drawn. -/
structure Thresholds (α : Type) where
  medium : α
  low : α
  minimal : α

namespace Thresholds

variable {α : Type} [Scalar α]

/-- Whether the distances are finite, positive and increasing. -/
def isValid (t : Thresholds α) : Bool :=
  Scalar.isFinite t.medium && Scalar.isFinite t.low && Scalar.isFinite t.minimal &&
    0 < t.medium && t.medium < t.low && t.low < t.minimal

/-- The level at a distance. -/
def select (t : Thresholds α) (distance : α) : DetailLevel :=
  if distance < t.medium then .high
  else if distance < t.low then .medium
  else if distance < t.minimal then .low
  else .minimal

/-- The usual distances, in metres. -/
def standard : Thresholds α := ⟨10.0, 50.0, 150.0⟩

/-- Check distances. -/
def check (t : Thresholds Float32) : Except ViewError (Thresholds Float32) :=
  if t.isValid then .ok t
  else
    let text := " < ".intercalate ([t.medium, t.low, t.minimal].map Number.singleText)
    .error (.settings s!"LOD thresholds must increase: {text}")

end Thresholds

/-- A cell of the grid. -/
abbrev GridKey := Int32 × Int32 × Int32

/-- What is known of the vertices in a cell. -/
structure Cluster (α : Type) [Stored α] where
  sum : Stored.Sum α
  normal : Stored.Sum α
  count : UInt32
  /-- The one vertex for the cell, once there is one. -/
  index : Option UInt32

namespace Cluster

variable {α : Type} [Stored α]

/-- A cell without vertices. -/
def empty : Cluster α := ⟨Stored.noSum, Stored.noSum, 0, none⟩

/-- Take in a vertex. -/
def add (c : Cluster α) (position normal : Vec3 α) : Cluster α where
  sum := Stored.addTo c.sum position
  normal := Stored.addTo c.normal normal
  count := c.count + 1
  index := c.index

end Cluster

/-- The cells in which vertices lie, numbered in the order in which vertices were first met there. -/
structure CellTable (α : Type) [Stored α] where
  cells : Std.HashMap GridKey Nat
  clusters : Array (Cluster α)
  /-- The number of the cell of each vertex. -/
  numbers : Array Nat

namespace CellTable

variable {α : Type} [Stored α]

/-- No vertices. -/
def empty : CellTable α := ⟨{}, #[], #[]⟩

/-- The number of a cell. A new cell gets the next number. -/
def enter (t : CellTable α) (key : GridKey) : Nat × CellTable α :=
  match t.cells[key]? with
  | some number => (number, t)
  | none =>
    let number := t.clusters.size
    (number, { t with cells := t.cells.insert key number, clusters := t.clusters.push .empty })

/-- Take in a vertex that lies in a cell. -/
def addVertex (t : CellTable α) (key : GridKey) (position normal : Vec3 α) : CellTable α :=
  let (number, t) := t.enter key
  { t with
    clusters := t.clusters.modify number (·.add position normal)
    numbers := t.numbers.push number }

end CellTable

/-- A mesh that gets the vertex of a cell when a triangle first needs it. -/
structure CoarseMesh (α : Type) [Stored α] where
  clusters : Array (Cluster α)
  mesh : Mesh α

namespace CoarseMesh

variable {α : Type} [Stored α]

/-- The vertex for a cell: the middle of its vertices, with the direction of their normals. It is made once. -/
def vertex (m : CoarseMesh α) (number : Nat) : UInt32 × CoarseMesh α :=
  match m.clusters[number]? with
  | none => (0, m)
  | some c =>
    match c.index with
    | some index => (index, m)
    | none =>
      let index := m.mesh.nextIndex
      (index,
        { clusters := m.clusters.setIfInBounds number { c with index := some index }
          mesh := m.mesh.addVertex (Stored.mean c.sum c.count) (Stored.direction c.normal) })

/-- Whether a triangle is left when its corners move into their cells. -/
def survives {κ : Type} [DecidableEq κ] (primitive : Primitive) (a b c : κ) : Bool :=
  match primitive with
  | .lines => a ≠ b
  | .triangles => a ≠ b && b ≠ c && a ≠ c

/-- Add the triangle between three cells, if it is left. -/
def addTriangle (m : CoarseMesh α) (primitive : Primitive) (a b c : Nat) : CoarseMesh α :=
  if survives primitive a b c then
    let (a, m) := m.vertex a
    let (b, m) := m.vertex b
    let (c, m) := m.vertex c
    { m with mesh := m.mesh.addTriangle a b c }
  else m

end CoarseMesh

namespace Geometry

variable {α : Type} [Stored α]

/-- The cell in which a point lies. -/
def gridKey (g : Geometry α) (cell : α) (p : Vec3 α) : GridKey :=
  let low := g.bounds.min
  (Stored.gridIndex ((p.x - low.x) / cell), Stored.gridIndex ((p.y - low.y) / cell),
    Stored.gridIndex ((p.z - low.z) / cell))

/-- The cells of all vertices, as a table. -/
def cellTable (g : Geometry α) (cell : α) : CellTable α :=
  (List.range g.vertexCount).foldl (fun table i =>
    table.addVertex (g.gridKey cell (g.mesh.point i)) (g.mesh.point i) (g.mesh.normal i)) .empty

/-- The mesh with one vertex for each cell that a triangle is left in. -/
def clusterMesh (g : Geometry α) (cell : α) : Mesh α :=
  let table := g.cellTable cell
  let number (i : UInt32) : Nat := table.numbers.getD i.toNat 0
  let start : CoarseMesh α := ⟨table.clusters, Mesh.empty⟩
  (g.mesh.triangles.foldl (fun m (a, b, c) => m.addTriangle g.primitive (number a) (number b) (number c))
    start).mesh

/-- The geometry on a grid of cells; none if no triangle is left. -/
def cluster? (g : Geometry α) (cell : α) : Option (Geometry α) :=
  if 0 < cell then
    let mesh := g.clusterMesh cell
    if mesh.indices.isEmpty then none else (g.derive g.primitive mesh).toOption
  else none

/-- The edges of a box, as pairs of its corners. -/
def boxEdges : List (UInt32 × UInt32) := [
  (0, 1), (2, 3), (4, 5), (6, 7),
  (0, 2), (1, 3), (4, 6), (5, 7),
  (0, 4), (1, 5), (2, 6), (3, 7)]

/-- The edges of the box of a geometry. -/
def wireframe? (g : Geometry α) : Option (Geometry α) :=
  if g.bounds.isEmpty then none
  else
    let corners := g.bounds.corners.foldl (fun m p => m.addVertex p Vec3.unitZ) Mesh.empty
    let mesh := boxEdges.foldl (fun m (a, b) => m.addSegment a b) corners
    (g.derive .lines mesh).toOption

end Geometry

/-- A geometry with its simpler variants, the most detailed first. -/
structure DetailSet (α : Type) where
  high : Geometry α
  coarser : List (DetailLevel × Geometry α)

namespace DetailSet

variable {α : Type} [Stored α]

/-- The number of cells along the longest side of the box. -/
def mediumCells : α := 12.0
def lowCells : α := 4.0

/-- The variants that may be kept. -/
def candidates (high : Geometry α) : List (DetailLevel × Option (Geometry α)) :=
  let extent := high.bounds.extent
  let clustered :=
    if 0 < extent then
      [(.medium, high.cluster? (extent / mediumCells)), (.low, high.cluster? (extent / lowCells))]
    else []
  clustered ++ [(.minimal, high.wireframe?)]

/-- Whether a variant is kept after one with `previous` vertices. -/
def keeps (level : DetailLevel) (vertices previous : Nat) : Bool :=
  match level with
  | .minimal => vertices ≤ previous
  | _ => vertices < previous

/-- All variants with their levels. -/
def variants (s : DetailSet α) : List (DetailLevel × Geometry α) := (.high, s.high) :: s.coarser

/-- The number of vertices of the last variant. -/
def lastVertexCount (s : DetailSet α) : Nat :=
  match s.coarser.getLast? with
  | some (_, g) => g.vertexCount
  | none => s.high.vertexCount

/-- Keep a variant if it is simpler. -/
def consider (s : DetailSet α) (candidate : DetailLevel × Option (Geometry α)) : DetailSet α :=
  match candidate with
  | (level, some g) =>
    if keeps level g.vertexCount s.lastVertexCount then { s with coarser := s.coarser ++ [(level, g)] }
    else s
  | (_, none) => s

/-- The variants of a geometry. -/
def build (high : Geometry α) : DetailSet α := (candidates high).foldl consider ⟨high, []⟩

/-- The variant of exactly one level. -/
def get? (s : DetailSet α) (level : DetailLevel) : Option (Geometry α) := s.variants.lookup level

/-- What is drawn for a level: the simplest variant that is not simpler than the level. -/
def select (s : DetailSet α) (level : DetailLevel) : DetailLevel × Geometry α :=
  (s.variants.reverse.find? fun (l, _) => l.rank ≤ level.rank).getD (.high, s.high)

/-- The levels that have a variant. -/
def levels (s : DetailSet α) : List DetailLevel := s.variants.map (·.1)

end DetailSet

end BuildingModel
