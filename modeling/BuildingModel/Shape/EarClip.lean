import BuildingModel.Shape.Grid

/-!
# Ear clipping

Triangles of a polygon with holes. The boundary is a ring of nodes; holes are joined to the outer ring
by bridges, and then ears are cut off one after the other. If no ear is left, the ring is cleaned, then
crossings of neighbouring edges are cut off, and at last the ring is split along a diagonal.

Nodes are numbered. A node that is taken out of its ring keeps its own links. Node zero belongs to no
polygon; it stands for "no ring". Every loop around a ring is bounded by the number of nodes.

If there are many points, they are put on a grid, and the nodes of a ring are lined up by the numbers of
their cells. What may lie in an ear is then looked for on both sides of it in this line, and only until
the numbers leave the range between the corners of the ear.
-/

namespace BuildingModel

/-- Nodes linked into rings, and the triangles cut off so far. -/
structure Rings (α : Type) where
  points : Array (Vec2 α)
  /-- Which point of the polygon a node stands for. -/
  vertices : Array Nat
  previous : Array Nat
  following : Array Nat
  /-- Three points of the polygon for each triangle. -/
  triangles : Array Nat
  /-- The grid on which the points are, if they are on one. -/
  grid : Option (Grid α)
  /-- The nodes of the ring that is being cut, each after the number of its cell, lined up by these
  numbers. -/
  line : List (Int32 × Nat)

namespace Rings

variable {α : Type} [Scalar α]

/-- The node that stands for no ring. -/
def noRing : Nat := 0

/-- No node but node zero. -/
def empty : Rings α := ⟨#[⟨0, 0⟩], #[0], #[0], #[0], #[], none, []⟩

/-- The coordinates of a node. -/
def point (r : Rings α) (p : Nat) : Vec2 α := r.points.getD p ⟨0, 0⟩

/-- The point of the polygon that a node stands for. -/
def vertex (r : Rings α) (p : Nat) : Nat := r.vertices.getD p 0

/-- The node before a node. -/
def prev (r : Rings α) (p : Nat) : Nat := r.previous.getD p noRing

/-- The node after a node. -/
def next (r : Rings α) (p : Nat) : Nat := r.following.getD p noRing

/-- How many nodes there are, those taken out included. -/
def size (r : Rings α) : Nat := r.points.size

/-- Let `b` follow `a`. -/
def join (r : Rings α) (a b : Nat) : Rings α :=
  { r with following := r.following.setIfInBounds a b, previous := r.previous.setIfInBounds b a }

/-- Take a node out of its ring and out of the line. -/
def remove (r : Rings α) (p : Nat) : Rings α :=
  { r.join (r.prev p) (r.next p) with line := r.line.eraseP (·.2 == p) }

/-- A new node, which is a ring of its own. -/
def add (r : Rings α) (point : Vec2 α) (vertex : Nat) : Rings α × Nat :=
  ({ r with
      points := r.points.push point
      vertices := r.vertices.push vertex
      previous := r.previous.push r.size
      following := r.following.push r.size }, r.size)

/-- A new node after a node of a ring, or on its own. -/
def addAfter (r : Rings α) (last : Option Nat) (point : Vec2 α) (vertex : Nat) : Rings α × Nat :=
  let (r, p) := r.add point vertex
  match last with
  | some last => ((r.join p (r.next last)).join last p, p)
  | none => (r, p)

/-- Cut off a triangle. -/
def emit (r : Rings α) (a b c : Nat) : Rings α :=
  { r with triangles := ((r.triangles.push (r.vertex a)).push (r.vertex b)).push (r.vertex c) }

/-- Twice the area of a triangle: negative for a left turn. -/
def area (p q s : Vec2 α) : α := (q.y - p.y) * (s.x - q.x) - (q.x - p.x) * (s.y - q.y)

/-- The area at a node and its two neighbours. -/
def turn (r : Rings α) (p : Nat) : α := area (r.point (r.prev p)) (r.point p) (r.point (r.next p))

/-- Whether a point lies in a triangle or on its boundary. -/
def inTriangle (a b c p : Vec2 α) : Bool :=
  0 ≤ (c.x - p.x) * (a.y - p.y) - (a.x - p.x) * (c.y - p.y) &&
    0 ≤ (a.x - p.x) * (b.y - p.y) - (b.x - p.x) * (a.y - p.y) &&
    0 ≤ (b.x - p.x) * (c.y - p.y) - (c.x - p.x) * (b.y - p.y)

/-- Whether two nodes have the same coordinates. -/
def coincide (r : Rings α) (p q : Nat) : Bool := (r.point p).same (r.point q)

/-- At most `bound` nodes from `p` on, up to but without `stop`. -/
def chainUpTo (r : Rings α) (stop : Nat) : (bound : Nat) → (p : Nat) → List Nat
  | 0, _ => []
  | bound + 1, p => if p = stop then [] else p :: chainUpTo r stop bound (r.next p)

/-- The nodes from `p` on, up to but without `stop`. -/
def chain (r : Rings α) (p stop : Nat) : List Nat := r.chainUpTo stop r.size p

/-- The nodes from `p` on up to `stop`, with `p` first in any case: from `stop` itself they go once around
the ring. -/
def chainFrom (r : Rings α) (p stop : Nat) : List Nat := p :: r.chain (r.next p) stop

/-- The nodes of a ring, once around from `start`. -/
def around (r : Rings α) (start : Nat) : List Nat := r.chainFrom start start

/-- Twice the signed area of a loop, measured edge by edge from the last point on. -/
def loopArea (points : List (Vec2 α)) : α :=
  match points.getLast? with
  | none => 0
  | some last =>
    (points.foldl (fun (sum, before) p => (sum + (before.x - p.x) * (p.y + before.y), p))
      ((0 : α), last)).1

/-- A ring of new nodes for a loop whose points are numbered from `start` on, running clockwise or not:
the rings, the last node, and the first of those furthest to the left. A loop whose abscissas are all
infinite or no numbers has no leftmost node. -/
def addRing (r : Rings α) (points : List (Vec2 α)) (start : Nat) (clockwise : Bool) :
    Rings α × Nat × Option Nat :=
  let numbered := points.zipIdx start
  let ordered := if clockwise == decide (0 < loopArea points) then numbered else numbered.reverse
  let (r, last, left, _) := ordered.foldl
    (fun (r, last, left, least) (point, vertex) =>
      let (r, p) := r.addAfter last point vertex
      if point.x < least then (r, some p, some p, point.x) else (r, some p, left, least))
    (r, none, none, Scalar.largest)
  let last := last.getD noRing
  if r.coincide last (r.next last) then
    let first := r.next last
    (r.remove last, first, left)
  else (r, last, left)

/-- Take out nodes that coincide with their neighbour or lie on a straight line, from `p` on until
`stop`. The answer is a node of what is left. -/
def filterUpTo : (bound : Nat) → Rings α → (p stop : Nat) → Rings α × Nat
  | 0, r, _, stop => (r, stop)
  | bound + 1, r, p, stop =>
    if r.coincide p (r.next p) || r.turn p == 0 then
      let r := r.remove p
      let p := r.prev p
      if p = r.next p then (r, p) else filterUpTo bound r p p
    else if p = r.next p then (r, noRing)
    else
      let p := r.next p
      if p = stop then (r, stop) else filterUpTo bound r p stop

/-- Take out needless nodes from `p` on until `stop`. Between two nodes that are taken out the walk
passes each node at most once. -/
def filter (r : Rings α) (p stop : Nat) : Rings α × Nat :=
  filterUpTo ((r.size + 1) * (r.size + 1)) r p stop

/-- Connect two nodes by a diagonal: the ring falls into two, or two rings become one. The answer is
the new node at the far end. -/
def split (r : Rings α) (a b : Nat) : Rings α × Nat :=
  let (r, c) := r.add (r.point a) (r.vertex a)
  let (r, d) := r.add (r.point b) (r.vertex b)
  let afterA := r.next a
  let beforeB := r.prev b
  ((((r.join a b).join c afterA).join d c).join beforeB d, d)

/-- Whether a diagonal from `a` to `b` starts into the polygon. -/
def locallyInside (r : Rings α) (a b : Nat) : Bool :=
  let (pa, pb) := (r.point a, r.point b)
  let (before, after) := (r.point (r.prev a), r.point (r.next a))
  if r.turn a < 0 then 0 ≤ area pa pb after && 0 ≤ area pa before pb
  else area pa pb before < 0 || area pa after pb < 0

/-- What the search for a bridge found: an end, or the best edge so far and where it was met. -/
inductive BridgeSearch (α : Type) where
  | found (node : Nat)
  | best (x : α) (node : Nat)

/-- Look to the left of a hole for the nearest edge of the outer ring. -/
def bridgeStep (r : Rings α) (hole : Vec2 α) (state : BridgeSearch α) (p : Nat) : BridgeSearch α :=
  match state with
  | .found node => .found node
  | .best nearest node =>
    let n := r.next p
    let (a, b) := (r.point p, r.point n)
    if hole.y ≤ a.y && b.y ≤ hole.y && b.y != a.y then
      let x := a.x + (hole.y - a.y) * (b.x - a.x) / (b.y - a.y)
      if x ≤ hole.x && nearest < x then
        if x == hole.x && hole.y == a.y then .found p
        else if x == hole.x && hole.y == b.y then .found n
        else .best x (if a.x < b.x then p else n)
      else .best nearest node
    else .best nearest node

/-- Of the nodes between a hole and the edge met from it, the one under the smallest angle. -/
def bridgeEnd (r : Rings α) (hole : Nat) (x : α) (m : Nat) : Nat :=
  let (h, pm) := (r.point hole, r.point m)
  let low := if h.y < pm.y then h.x else x
  let high := if h.y < pm.y then x else h.x
  ((r.chain (r.next m) m).foldl
    (fun (best, slope) p =>
      let q := r.point p
      if q.x < h.x && pm.x ≤ q.x && inTriangle ⟨low, h.y⟩ pm ⟨high, h.y⟩ q then
        let t := Scalar.abs (h.y - q.y) / (h.x - q.x)
        if (t < slope || (t == slope && (r.point best).x < q.x)) && r.locallyInside p hole then (p, t)
        else (best, slope)
      else (best, slope))
    (m, Scalar.largest / 2.0)).1

/-- The node of the outer ring to which a hole is joined. -/
def bridge (r : Rings α) (hole outer : Nat) : Nat :=
  let h := r.point hole
  match (r.around outer).foldl (r.bridgeStep h) (.best (-Scalar.infinity) noRing) with
  | .found node => node
  | .best x m =>
    if m = noRing then noRing
    else if h.x == x then r.prev m
    else r.bridgeEnd hole x m

/-- Join a hole to the outer ring. The answer is a node of the joined ring. -/
def joinHole (state : Rings α × Nat) (hole : Nat) : Rings α × Nat :=
  let (r, outer) := state
  let (r, b) := r.split (r.bridge hole outer) hole
  let (r, _) := r.filter b (r.next b)
  r.filter outer (r.next outer)

/-- Put all nodes on a grid, with coordinates counted from its least corner. -/
def putOn (r : Rings α) (g : Grid α) : Rings α :=
  { r with points := r.points.map (· - g.low), grid := some g }

/-- The number of the cell of a point, if there is a grid. -/
def cell? (r : Rings α) (p : Vec2 α) : Option Int32 := r.grid.bind (·.cell? p)

/-- Whether every node of a ring has a cell, if there is a grid. -/
def isPlaced (r : Rings α) (start : Nat) : Bool :=
  r.grid.isNone || (r.around start).all fun p => (r.cell? (r.point p)).isSome

/-- Line up the nodes of a ring; those in one cell stay in their order. -/
def lineUp (r : Rings α) (start : Nat) : Rings α :=
  let numbered := (r.around start).filterMap fun p => (r.cell? (r.point p)).map fun k => (k, p)
  { r with line := numbered.mergeSort fun a b => a.1 ≤ b.1 }

/-- The nodes on both sides of a node in the line, the nearest first. -/
def sides (r : Rings α) (p : Nat) : List (Int32 × Nat) × List (Int32 × Nat) :=
  match r.line.span (·.2 != p) with
  | (_, []) => ([], [])
  | (before, _ :: after) => (before.reverse, after)

/-- The nodes about `p` in the line whose cells may lie in the bounds of a triangle: on one side until a
number is below that of the least corner, on the other until one is above that of the greatest. -/
def nearby (r : Rings α) (p : Nat) (a b c : Vec2 α) : List Nat :=
  let low := r.cell? (Grid.leastCorner [a, b, c])
  let high := r.cell? (Grid.greatestCorner [a, b, c])
  let (before, after) := r.sides p
  ((before.takeWhile fun q => low.any (· ≤ q.1)) ++ after.takeWhile fun q => high.any (q.1 ≤ ·)).map (·.2)

/-- Whether a node is an inward corner in a triangle. -/
def blocks (r : Rings α) (a b c : Vec2 α) (p : Nat) : Bool := inTriangle a b c (r.point p) && 0 ≤ r.turn p

/-- Whether the node `b` between `a` and `c` is an ear: neither straight nor a right turn, with no inward
corner in it. If nothing but the triangle is left, its own corners are looked at, unless the points are on
a grid. -/
def isEar (r : Rings α) (a b c : Nat) : Bool :=
  let (pa, pb, pc) := (r.point a, r.point b, r.point c)
  !decide (0 ≤ area pa pb pc) &&
    if r.grid.isNone then (r.chainFrom (r.next c) a).all fun p => !r.blocks pa pb pc p
    else (r.nearby b pa pb pc).all fun p => p == a || p == c || !r.blocks pa pb pc p

/-- Whether two segments cross or have the same ends. -/
def crosses (r : Rings α) (p1 q1 p2 q2 : Nat) : Bool :=
  if (r.coincide p1 p2 && r.coincide q1 q2) || (r.coincide p1 q2 && r.coincide q1 p2) then true
  else
    let (a, b, c, d) := (r.point p1, r.point q1, r.point p2, r.point q2)
    (decide (0 < area a b c) != decide (0 < area a b d)) &&
      (decide (0 < area c d a) != decide (0 < area c d b))

/-- Cut off ears from `ear` on until none is found in a whole round, which ends at `stop`. The answer
is the neighbours of the last node that was looked at. -/
def clipUpTo : (bound : Nat) → Rings α → (ear stop prev next : Nat) → Rings α × Nat × Nat
  | 0, r, _, _, prev, next => (r, prev, next)
  | bound + 1, r, ear, stop, prev, next =>
    if stop = next then (r, prev, next)
    else
      let prev := r.prev ear
      let next := r.next ear
      if r.isEar prev ear next then
        let r := (r.emit prev ear next).remove ear
        let ear := r.next next
        clipUpTo bound r ear ear prev next
      else clipUpTo bound r next stop prev next

/-- Cut off crossings of neighbouring edges, from `p` on until `start`. -/
def cureUpTo : (bound : Nat) → Rings α → (p start : Nat) → Rings α × Nat
  | 0, r, p, _ => (r, p)
  | bound + 1, r, p, start =>
    let a := r.prev p
    let n := r.next p
    let b := r.next n
    let (r, p, start) :=
      if !r.coincide a b && r.crosses a p n b && r.locallyInside a b && r.locallyInside b a then
        let r := (r.emit a p b).remove p
        (r.remove (r.next p), b, b)
      else (r, p, start)
    let p := r.next p
    if p = start then (r, p) else cureUpTo bound r p start

/-- Whether the middle of a diagonal lies inside the ring of `a`, by the number of edges to one side. -/
def middleInside (r : Rings α) (a b : Nat) : Bool :=
  let (pa, pb) := (r.point a, r.point b)
  let mx := (pa.x + pb.x) / 2.0
  let my := (pa.y + pb.y) / 2.0
  (r.around a).foldl
    (fun inside p =>
      let (q, n) := (r.point p, r.point (r.next p))
      if (decide (my < q.y) != decide (my < n.y)) && n.y != q.y &&
          decide (mx < (n.x - q.x) * (my - q.y) / (n.y - q.y) + q.x) then !inside
      else inside)
    false

/-- Whether a diagonal crosses an edge of the ring that does not touch its ends. -/
def crossesRing (r : Rings α) (a b : Nat) : Bool :=
  let ends := [r.vertex a, r.vertex b]
  (r.around a).any fun p =>
    !ends.contains (r.vertex p) && !ends.contains (r.vertex (r.next p)) && r.crosses p (r.next p) a b

/-- Whether a diagonal lies inside the ring. -/
def isDiagonal (r : Rings α) (a b : Nat) : Bool :=
  r.vertex (r.next a) != r.vertex b && r.vertex (r.prev a) != r.vertex b && !r.crossesRing a b &&
    r.locallyInside a b && r.locallyInside b a && r.middleInside a b

/-- The first diagonal of a ring. -/
def diagonal? (r : Rings α) (start : Nat) : Option (Nat × Nat) :=
  (r.around start).findSome? fun a =>
    ((r.chain (r.next (r.next a)) (r.prev a)).find? fun b =>
      r.vertex a != r.vertex b && r.isDiagonal a b).map fun b => (a, b)

/-- What is tried on a ring when no ear is left. -/
inductive Pass where
  | first
  | filtered
  | cured

/-- Cut a ring into triangles. Each ring that a diagonal cuts off is smaller than the ring before, so a
bound of some passes for each node is never reached. -/
def clip : (bound : Nat) → Rings α → (ear : Nat) → Pass → Rings α
  | 0, r, _, _ => r
  | bound + 1, r, ear, pass =>
    let rounds := (r.size + 1) * (r.size + 1)
    let r := match pass with
      | .first => r.lineUp ear
      | _ => r
    let (r, prev, next) := clipUpTo rounds r ear ear noRing (r.next ear)
    if prev = next then r
    else match pass with
      | .first =>
        let (r, p) := r.filter next next
        clip bound r p .filtered
      | .filtered =>
        let (r, p) := cureUpTo rounds r next next
        clip bound r p .cured
      | .cured =>
        match r.diagonal? next with
        | none => r
        | some (a, b) =>
          let (r, c) := r.split a b
          let (r, a) := r.filter a (r.next a)
          let (r, c) := r.filter c (r.next c)
          clip bound (clip bound r a .first) c .first

/-- From this number of points on, the points are put on a grid. -/
def manyPoints : Nat := 40

/-- Join all holes to the outer ring, the leftmost hole first. -/
def joinHoles (r : Rings α) (outer : Nat) (lefts : List Nat) : Rings α × Nat :=
  let ordered := lefts.mergeSort fun p q => !decide ((r.point q).x < (r.point p).x)
  ordered.foldl joinHole (r, outer)

end Rings

/-- Triangles of a polygon with holes, as places in the list of all points: first those of the outer
loop, then those of each hole. There are none if a loop has no leftmost point, or if many points are given
and some have no place on a grid. -/
def earClip {α : Type} [Scalar α] (outer : List (Vec2 α)) (holes : List (List (Vec2 α))) :
    Option (List Nat) := do
  let (r, last, left) := Rings.empty.addRing outer 0 true
  let (r, lefts, count) := holes.foldl
    (fun (r, lefts, count) hole =>
      let (r, _, left) := Rings.addRing r hole count false
      (r, left :: lefts, count + hole.length))
    (r, [], outer.length)
  let _ ← left
  let lefts ← lefts.reverse.mapM id
  let (r, start) := r.joinHoles last lefts
  let r := if Rings.manyPoints ≤ count then r.putOn (.covering (outer :: holes)) else r
  guard (r.isPlaced start)
  return (r.clip (4 * r.size + 4) start .first).triangles.toList

end BuildingModel
