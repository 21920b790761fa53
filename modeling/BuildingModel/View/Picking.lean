import BuildingModel.View.Camera
import BuildingModel.View.Visibility

/-!
# Picking

The first triangle that a ray meets, among those that are drawn. Objects whose boxes the ray misses, or
enters only behind what has been met already, are skipped.
-/

namespace BuildingModel

/-- A ray from a point in a direction. -/
structure Ray (α : Type) where
  origin : Vec3 α
  direction : Vec3 α

namespace Ray

variable {α : Type} [Scalar α]

/-- Lengths up to this size count as none. -/
def tolerance : α := 1e-7

/-- The ray in a direction, unless that is too short. -/
def ofDirection? (origin direction : Vec3 α) : Option (Ray α) :=
  (direction.normalize? tolerance).map fun d => ⟨origin, d⟩

/-- The point of the world behind a point of the picture's cube. -/
def unproject? (inverse : Mat4 α) (p : Vec2 α) (depth : α) : Option (Vec3 α) :=
  let q := inverse.mulVec ⟨p.x, p.y, depth, 1⟩
  if tolerance < Scalar.abs q.w then some (q.xyz.divideBy q.w) else none

/-- The ray through a point of the picture, from its front to its back. -/
def ofScreen? (p : Vec2 α) (inverse : Mat4 α) : Option (Ray α) := do
  let near ← unproject? inverse p (-1)
  let far ← unproject? inverse p 1
  ofDirection? near (far - near)

/-- The point at a distance. -/
def point (r : Ray α) (t : α) : Vec3 α := r.origin + r.direction.scale t

/-- Where a ray meets a triangle. -/
def meet? (r : Ray α) (triangle : Vec3 α × Vec3 α × Vec3 α) : Option α :=
  let (v0, v1, v2) := triangle
  let edge1 := v1 - v0
  let edge2 := v2 - v0
  let h := r.direction.cross edge2
  let a := edge1.dot h
  if Scalar.abs a < tolerance then none
  else
    let f := 1 / a
    let s := r.origin - v0
    let u := f * s.dot h
    if !(0 ≤ u && u ≤ 1) then none
    else
      let q := s.cross edge1
      let v := f * r.direction.dot q
      if v < 0 || 1 < u + v then none
      else
        let t := f * edge2.dot q
        if tolerance < t then some t else none

end Ray

/-- What a ray has met. -/
structure PickHit (α : Type) where
  object : ObjectKey
  entity : EntityId
  triangle : Nat
  point : Vec3 α
  distance : α

namespace Look

variable {α : Type} [Stored α]

/-- Look at a triangle of an object, given the nearest hit so far. -/
def pickTriangle (l : Look α) (ray localRay : Ray α) (geometry : Geometry α)
    (keyed : SceneObject α × ObjectKey) (best : Option (PickHit α)) (i : Nat) : Option (PickHit α) :=
  match localRay.meet? (geometry.corners i) with
  | none => best
  | some t =>
    let point := ray.point t
    if best.any (fun hit => !decide (t < hit.distance)) || l.filter.clipping.clipsPoint point then best
    else some ⟨keyed.2, keyed.1.entity, i, point, t⟩

/-- Whether an object can be drawn at all. -/
def shows (l : Look α) (o : SceneObject α) : Bool :=
  !l.filter.isHidden o && !l.filter.clipping.clipsBox o.worldBounds && l.frustum.intersects o.worldBounds

/-- Look at an object, given the nearest hit so far. -/
def pickObject (l : Look α) (s : Scene α) (ray : Ray α) (best : Option (PickHit α))
    (keyed : SceneObject α × ObjectKey) : Option (PickHit α) :=
  let o := keyed.1
  if !l.shows o then best
  else match o.worldBounds.rayEntry? ray.origin ray.direction, o.inverse,
      s.active? o (l.requestedLevel o) with
    | some entry, some inverse, some (_, geometry) =>
      let localRay : Ray α := ⟨inverse.transformPoint ray.origin, inverse.transformVector ray.direction⟩
      if best.any (·.distance < entry) || geometry.primitive = .lines ||
          (geometry.bounds.rayEntry? localRay.origin localRay.direction).isNone then best
      else (List.range geometry.triangleCount).foldl (l.pickTriangle ray localRay geometry keyed) best
    | _, _, _ => best

/-- The nearest thing that a ray meets. -/
def pickRay? (l : Look α) (s : Scene α) (ray : Ray α) : Option (PickHit α) :=
  match Ray.ofDirection? ray.origin ray.direction with
  | none => none
  | some ray => s.keyed.foldl (l.pickObject s ray) none

/-- The nearest thing under a point of the picture. -/
def pickScreen? (l : Look α) (s : Scene α) (viewProjection : Mat4 α) (p : Vec2 α) : Option (PickHit α) := do
  let inverse ← viewProjection.inverse?
  let ray ← Ray.ofScreen? p inverse
  l.pickRay? s ray

end Look

/-- How a scene is looked at through a camera. -/
def Camera.look (c : Camera) (thresholds : Thresholds Float32) (filter : VisibilityFilter Float32) :
    Look Float32 :=
  ⟨.ofViewProjection c.viewProjection, c.eye, thresholds, filter⟩

/-- The nearest thing under a pixel. -/
def Camera.pick? (c : Camera) (s : Scene Float32) (thresholds : Thresholds Float32)
    (filter : VisibilityFilter Float32) (pixel : Vec2 Float32) : Option (PickHit Float32) :=
  (c.look thresholds filter).pickScreen? s c.viewProjection (c.ofScreen pixel)

end BuildingModel
