import BuildingModel.Number.Remainder
import BuildingModel.Space.Box

/-!
# Camera

A camera that looks at a target from a distance, with two angles for the direction. The third axis of
space points up.
-/

namespace BuildingModel

/-- What a camera is asked to do. -/
inductive CameraInput where
  /-- Turn around the target, by angles. -/
  | orbit (yaw pitch : Float32)
  /-- Multiply the distance. -/
  | zoom (factor : Float32)
  /-- Move the target across the view, by pixels. -/
  | pan (dx dy : Float32)
  /-- Bring a box into view. -/
  | fit (bounds : Box Float32)
  /-- Change the size of the picture. -/
  | resize (width height : UInt32)

/-- A camera. -/
structure Camera where
  target : Vec3 Float32
  distance : Float32
  yaw : Float32
  pitch : Float32
  /-- The angle of view from bottom to top. -/
  fieldOfView : Float32
  near : Float32
  far : Float32
  /-- The width of the picture in pixels. -/
  width : UInt32
  /-- The height of the picture in pixels. -/
  height : UInt32

/-- What is seen: a transformation to the cube of the picture, and the place of the eye. -/
structure Viewpoint (α : Type) where
  viewProjection : Mat4 α
  eye : Vec3 α

namespace Camera

open Scalar

/-- The least distance from the target. -/
def minDistance : Float32 := 0.01

/-- The greatest angle up or down. -/
def maxPitch : Float32 := 1.55

/-- A quarter of a half turn. -/
def eighthTurn : Float32 := 0.785398163397448

/-- A full turn. -/
def fullTurn : Float32 := 6.283185307179586

/-- The camera at the start, for a size of the picture. -/
def ofSize (width height : UInt32) : Camera where
  target := 0
  distance := 20
  yaw := -eighthTurn
  pitch := 0.5
  fieldOfView := eighthTurn
  near := 0.1
  far := 10000
  width := max width 1
  height := max height 1

/-- The camera at the start. -/
def standard : Camera := ofSize 1280 720

/-- The camera at a place, looking at a target. -/
def lookingAt (eye target : Vec3 Float32) (width height : UInt32) : Camera :=
  let offset := eye - target
  let distance := greatest offset.norm minDistance
  let slope := clamp (-1) 1 (offset.z / distance)
  let base := ofSize width height
  { base with
    target := target
    distance := distance
    yaw := (-offset.x).atan2 (-offset.y)
    pitch := clamp (-maxPitch) maxPitch slope.asin
    far := greatest base.far (distance * 4) }

/-- The width of the picture over its height. -/
def aspect (c : Camera) : Float32 := c.width.toFloat32 / c.height.toFloat32

/-- The direction from the eye to the target. -/
def forward (c : Camera) : Vec3 Float32 :=
  ⟨c.yaw.sin * c.pitch.cos, c.yaw.cos * c.pitch.cos, -c.pitch.sin⟩

/-- The place of the eye. -/
def eye (c : Camera) : Vec3 Float32 := c.target - c.forward.scale c.distance

/-- The transformation to coordinates of the eye, which looks down the third axis. -/
def view (c : Camera) : Mat4 Float32 :=
  let eye := c.eye
  let z := (eye - c.target).normalize
  let x := (Vec3.unitZ.cross z).normalize
  let y := z.cross x
  let turn := Mat4.transpose (Mat4.ofFrame x y z 0)
  { turn with
    w := let t := turn.transformVector (-eye)
         ⟨t.x, t.y, t.z, 1⟩ }

/-- The transformation from coordinates of the eye to the cube of the picture. -/
def projection (c : Camera) : Mat4 Float32 :=
  let scale := 1 / (c.fieldOfView / 2).tan
  let depth := c.near - c.far
  ⟨⟨scale / c.aspect, 0, 0, 0⟩, ⟨0, scale, 0, 0⟩, ⟨0, 0, (c.far + c.near) / depth, -1⟩,
    ⟨0, 0, c.far * c.near * 2 / depth, 0⟩⟩

/-- The transformation from the world to the cube of the picture. -/
def viewProjection (c : Camera) : Mat4 Float32 := c.projection * c.view

/-- What the camera sees. -/
def viewpoint (c : Camera) : Viewpoint Float32 := ⟨c.viewProjection, c.eye⟩

/-- Turn around the target. -/
def orbit (c : Camera) (yaw pitch : Float32) : Camera :=
  if yaw.isFinite && pitch.isFinite then
    { c with
      yaw := Number.remainder (c.yaw + yaw) fullTurn
      pitch := clamp (-maxPitch) maxPitch (c.pitch + pitch) }
  else c

/-- Multiply the distance. -/
def zoom (c : Camera) (factor : Float32) : Camera :=
  if factor.isFinite && 0 < factor then
    { c with distance := greatest (c.distance * factor) minDistance }
  else c

/-- Move the target so that what is at its depth follows the pointer. -/
def pan (c : Camera) (dx dy : Float32) : Camera :=
  if dx.isFinite && dy.isFinite then
    let forward := c.forward
    let right := ((forward.cross Vec3.unitZ).normalize? 1e-6).getD Vec3.unitX
    let up := right.cross forward
    let perPixel := 2 * c.distance * (c.fieldOfView * 0.5).tan / c.height.toFloat32
    { c with target := c.target + ((-right).scale dx + up.scale dy).scale perPixel }
  else c

/-- Bring a box into view without turning. -/
def fitTo (c : Camera) (bounds : Box Float32) : Camera :=
  if bounds.isEmpty then c
  else
    let radius := greatest (bounds.diagonal * 0.5) minDistance
    let halfAngle := greatest (least c.fieldOfView (c.fieldOfView * c.aspect) * 0.5) 1e-3
    let distance := radius / halfAngle.sin
    { c with
      target := bounds.center
      distance := distance
      near := greatest (greatest (distance - radius) (distance * 1e-3)) 0.01 * 0.5
      far := (distance + radius) * 2 }

/-- Do what a camera is asked to do. -/
def apply (c : Camera) : CameraInput → Camera
  | .orbit yaw pitch => c.orbit yaw pitch
  | .zoom factor => c.zoom factor
  | .pan dx dy => c.pan dx dy
  | .fit bounds => c.fitTo bounds
  | .resize width height => { c with width := max width 1, height := max height 1 }

/-- The place of a pixel in the square of the picture, whose corners are at one and minus one. -/
def ofScreen (c : Camera) (p : Vec2 Float32) : Vec2 Float32 :=
  ⟨2 * p.x / c.width.toFloat32 - 1, 1 - 2 * p.y / c.height.toFloat32⟩

end Camera

end BuildingModel
