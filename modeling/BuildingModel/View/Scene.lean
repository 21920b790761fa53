import BuildingModel.Extract.Product
import BuildingModel.View.Detail

/-!
# Scenes

The objects of a model, placed in the world. Equal geometries are stored once, with their levels of
detail.
-/

namespace BuildingModel

/-- The place of an object in its scene. -/
abbrev ObjectKey := Nat

/-- A placed object. -/
structure SceneObject (α : Type) where
  entity : EntityId
  kind : Kind
  name : Option String
  /-- The place of its geometry in the scene. -/
  slot : Nat
  transform : Mat4 α
  /-- The inverse of the placement; without one the object cannot be picked. -/
  inverse : Option (Mat4 α)
  worldBounds : Box α
  color : Color

/-- The objects of a model. -/
structure Scene (α : Type) where
  geometries : Array (DetailSet α)
  objects : Array (SceneObject α)
  bounds : Box α

namespace Scene

variable {α : Type}

/-- The object with a key. -/
def object? (s : Scene α) (key : ObjectKey) : Option (SceneObject α) := s.objects[key]?

/-- The geometry at a place. -/
def geometry? (s : Scene α) (slot : Nat) : Option (DetailSet α) := s.geometries[slot]?

/-- All objects with their keys. -/
def keyed (s : Scene α) : List (SceneObject α × ObjectKey) := s.objects.toList.zipIdx

/-- The number of objects. -/
def objectCount (s : Scene α) : Nat := s.objects.size

/-- The number of different geometries. -/
def geometryCount (s : Scene α) : Nat := s.geometries.size

/-- The last object of an entity. -/
def find? (s : Scene α) (entity : EntityId) : Option ObjectKey :=
  (s.keyed.reverse.find? fun (o, _) => o.entity = entity).map (·.2)

variable [Stored α]

/-- A scene without objects. -/
def empty : Scene α := ⟨#[], #[], Box.empty⟩

/-- Whether two geometries have the same content. -/
def sameContent (g h : Geometry α) : Bool := g.hash == h.hash

/-- Place a shape, given the different geometries of its scene. -/
def place (distinct : List (Geometry α)) (shape : PlacedShape α) : SceneObject α where
  entity := shape.entity
  kind := shape.kind
  name := shape.name
  slot := distinct.findIdx (sameContent shape.geometry)
  transform := shape.transform
  inverse := shape.transform.inverse?
  worldBounds := shape.geometry.bounds.transformed shape.transform
  color := shape.geometry.color

/-- The scene of some shapes. -/
def build (shapes : List (PlacedShape α)) : Scene α :=
  let distinct := (shapes.map (·.geometry)).eraseDupsBy sameContent
  let objects := shapes.map (place distinct)
  { geometries := (distinct.map DetailSet.build).toArray
    objects := objects.toArray
    bounds := objects.foldl (fun b o => b.union o.worldBounds) Box.empty }

/-- The triangles of all objects in full detail. -/
def triangleCount (s : Scene α) : Nat :=
  Number.sumOf (fun o => ((s.geometry? o.slot).map (·.high.triangleCount)).getD 0) s.objects.toList

/-- How many different geometries have a variant of a level. -/
def variantCount (s : Scene α) (level : DetailLevel) : Nat :=
  Number.sumOf (·.levels.count level) s.geometries.toList

/-- What is drawn for an object at a level. -/
def active? (s : Scene α) (o : SceneObject α) (level : DetailLevel) :
    Option (DetailLevel × Geometry α) :=
  (s.geometry? o.slot).map (·.select level)

end Scene

end BuildingModel
