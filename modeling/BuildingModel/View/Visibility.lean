import BuildingModel.Linked.Spatial
import BuildingModel.View.Clipping
import BuildingModel.View.Frustum
import BuildingModel.View.Scene

/-!
# Visibility

Which objects are drawn, and in which detail: hidden objects are left out, then those that are cut away,
then those out of view. What is left is gathered into batches of equal geometry.
-/

namespace BuildingModel

/-- What the user does not want to see. -/
structure VisibilityFilter (α : Type) where
  entities : List EntityId
  kinds : List Kind
  /-- Parts of the building, each with the elements that it held when it was hidden. -/
  subtrees : List (EntityId × List EntityId)
  clipping : ClippingPlanes α

namespace VisibilityFilter

variable {α : Type}

/-- Nothing is hidden. -/
def empty : VisibilityFilter α := ⟨[], [], [], .empty⟩

/-- Hide an entity. -/
def hideEntity (f : VisibilityFilter α) (id : EntityId) : VisibilityFilter α :=
  { f with entities := f.entities.insert id }

/-- Show an entity again. -/
def showEntity (f : VisibilityFilter α) (id : EntityId) : VisibilityFilter α :=
  { f with entities := f.entities.filter (· ≠ id) }

/-- Hide a kind of entities. -/
def hideKind (f : VisibilityFilter α) (kind : Kind) : VisibilityFilter α :=
  { f with kinds := f.kinds.insert kind }

/-- Show a kind of entities again. -/
def showKind (f : VisibilityFilter α) (kind : Kind) : VisibilityFilter α :=
  { f with kinds := f.kinds.filter (· ≠ kind) }

/-- Show a part of the building again. -/
def showSubtree (f : VisibilityFilter α) (node : EntityId) : VisibilityFilter α :=
  { f with subtrees := f.subtrees.filter fun (n, _) => n ≠ node }

/-- Hide a part of the building. The answer comes with the number of its elements. -/
def hideSubtree (f : VisibilityFilter α) (tree : SpatialTree) (node : EntityId) :
    VisibilityFilter α × Nat :=
  let elements := (tree.elementsUnder node).eraseDups
  ({ f with subtrees := (node, elements) :: (f.showSubtree node).subtrees }, elements.length)

/-- Show everything again; the clipping planes stay. -/
def showAll (f : VisibilityFilter α) : VisibilityFilter α := ⟨[], [], [], f.clipping⟩

/-- Use other clipping planes. -/
def setClipping (f : VisibilityFilter α) (planes : ClippingPlanes α) : VisibilityFilter α :=
  { f with clipping := planes }

/-- Whether nothing is hidden or cut away. -/
def isEmpty (f : VisibilityFilter α) : Bool :=
  f.entities.isEmpty && f.kinds.isEmpty && f.subtrees.isEmpty && !f.clipping.isActive

/-- Whether an object is hidden. -/
def isHidden (f : VisibilityFilter α) (o : SceneObject α) : Bool :=
  f.entities.contains o.entity || f.kinds.contains o.kind ||
    f.subtrees.any fun (_, elements) => elements.contains o.entity

end VisibilityFilter

/-- One object of a batch. -/
structure Instance (α : Type) where
  object : ObjectKey
  transform : Mat4 α
  color : Color

/-- Objects that are drawn together, with one geometry. -/
structure Batch (α : Type) where
  slot : Nat
  level : DetailLevel
  hash : UInt64
  instances : List (Instance α)

/-- From where and how a scene is looked at. -/
structure Look (α : Type) where
  frustum : Frustum α
  eye : Vec3 α
  thresholds : Thresholds α
  filter : VisibilityFilter α

/-- What becomes of an object in a picture. -/
inductive Fate (α : Type) where
  | hidden
  | clipped
  | culled
  | visible (level : DetailLevel) (geometry : Geometry α)
  /-- Its geometry is not in the scene. -/
  | lost

namespace Fate

variable {α : Type}

/-- Whether the object is hidden. -/
def isHidden : Fate α → Bool
  | .hidden => true
  | _ => false

/-- Whether the object is cut away. -/
def isClipped : Fate α → Bool
  | .clipped => true
  | _ => false

/-- Whether the object is out of view. -/
def isCulled : Fate α → Bool
  | .culled => true
  | _ => false

/-- The level in which the object is drawn. -/
def level? : Fate α → Option DetailLevel
  | .visible level _ => some level
  | _ => none

end Fate

namespace Look

variable {α : Type} [Stored α]

/-- The level that is asked for an object. -/
def requestedLevel (l : Look α) (o : SceneObject α) : DetailLevel :=
  l.thresholds.select (o.worldBounds.distanceTo l.eye)

/-- What becomes of an object. -/
def fate (l : Look α) (s : Scene α) (o : SceneObject α) : Fate α :=
  if l.filter.isHidden o then .hidden
  else if l.filter.clipping.clipsBox o.worldBounds then .clipped
  else if !l.frustum.intersects o.worldBounds then .culled
  else match s.active? o (l.requestedLevel o) with
    | some (level, geometry) => .visible level geometry
    | none => .lost

/-- What becomes of all objects. -/
def fates (l : Look α) (s : Scene α) : List (Fate α) := s.objects.toList.map (l.fate s)

end Look

/-- Put an object into the batch of its geometry, or into a new one at the end. -/
def addToBatches {α : Type} (batch : Batch α) : List (Batch α) → List (Batch α)
  | [] => [batch]
  | b :: rest =>
    if b.hash = batch.hash then { b with instances := b.instances ++ batch.instances } :: rest
    else b :: addToBatches batch rest

/-- What is drawn of a scene. -/
structure VisibleSet (α : Type) where
  /-- In the order of their first objects. -/
  batches : List (Batch α)
  /-- The levels of all objects that are drawn. -/
  levels : List DetailLevel
  culled : Nat
  hidden : Nat
  clipped : Nat

namespace VisibleSet

variable {α : Type}

/-- The number of objects that are drawn. -/
def visible (v : VisibleSet α) : Nat := v.levels.length

/-- The number of objects that are drawn in a level. -/
def levelCount (v : VisibleSet α) (level : DetailLevel) : Nat := v.levels.count level

/-- The number of objects in all batches. -/
def instanceCount (v : VisibleSet α) : Nat := Number.sumOf (·.instances.length) v.batches

end VisibleSet

namespace Look

variable {α : Type} [Stored α]

/-- The batch of a single object, if it is drawn. -/
def single? (l : Look α) (s : Scene α) (keyed : SceneObject α × ObjectKey) : Option (Batch α) :=
  let (o, key) := keyed
  match l.fate s o with
  | .visible level geometry => some ⟨o.slot, level, geometry.hash, [⟨key, o.transform, o.color⟩]⟩
  | _ => none

/-- What is drawn of a scene. -/
def collect (l : Look α) (s : Scene α) : VisibleSet α :=
  let fates := l.fates s
  { batches := (s.keyed.filterMap (l.single? s)).foldl (fun bs b => addToBatches b bs) []
    levels := fates.filterMap (·.level?)
    culled := fates.countP (·.isCulled)
    hidden := fates.countP (·.isHidden)
    clipped := fates.countP (·.isClipped) }

end Look

end BuildingModel
