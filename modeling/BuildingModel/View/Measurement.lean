import BuildingModel.Number.Places
import BuildingModel.View.Picking

/-!
# Measurements

Distances between points that were picked one after the other.
-/

namespace BuildingModel

/-- A point that was picked. -/
structure MeasuredPoint where
  entity : EntityId
  position : Vec3 Float32

/-- The points picked so far. -/
structure Measurement where
  points : List MeasuredPoint

namespace Measurement

/-- No points yet. -/
def empty : Measurement := ⟨[]⟩

/-- Add the point of a hit. -/
def add (m : Measurement) (hit : PickHit Float32) : Measurement :=
  ⟨m.points ++ [⟨hit.entity, hit.point⟩]⟩

/-- The distance between two points, in double precision. -/
def distance (a b : Vec3 Float32) : Float := (b.toDouble - a.toDouble).norm

/-- The distance from each point to the next, in metres. -/
def distances (m : Measurement) : List Float :=
  m.points.zipWith (fun a b => distance a.position b.position) m.points.tail

/-- A distance to the millimetre. -/
def distanceText (metres : Float) : String := Number.fixedText 3 metres

/-- The distances as they are shown. -/
def labels (m : Measurement) : List String := m.distances.map distanceText

/-- The length of the whole way. -/
def total (m : Measurement) : Float := m.distances.foldl (· + ·) 0

end Measurement

end BuildingModel
