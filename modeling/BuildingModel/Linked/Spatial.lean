import BuildingModel.Linked.Model

/-!
# Spatial structure

The tree of spatial containers: project, site, building, storey, space. One kind of relationship says
which container is part of which, another which elements a container holds.
-/

namespace BuildingModel

/-- A spatial container. -/
structure SpatialNode where
  id : EntityId
  kind : Kind
  name : Option String
  /-- The containers that are part of it. -/
  children : List EntityId
  /-- The elements that it holds itself. -/
  elements : List EntityId
deriving DecidableEq, Repr, Inhabited

/-- What one relationship says about a container. -/
structure Assignment where
  container : EntityId
  children : List EntityId
  elements : List EntityId
deriving DecidableEq, Repr

namespace LinkedModel

/-- The entities that the list at place `i` of a relationship links to. -/
def related (m : LinkedModel) (rel : LinkedEntity) (i : Nat) : List LinkedEntity :=
  m.followAll ((rel.list? i).getD [])

/-- What a relationship says about a container. A container aggregates containers as its parts and
everything else as its elements. -/
def assignment? (m : LinkedModel) (rel : LinkedEntity) : Option Assignment :=
  match rel.kind with
  | .relAggregates => do
    let whole ← m.follow? rel 4
    if whole.kind.isSpatial then
      let (parts, others) := (m.related rel 5).partition (·.kind.isSpatial)
      return ⟨whole.id, parts.map (·.id), others.map (·.id)⟩
    else none
  | .relContainedInSpatialStructure => do
    let container ← m.follow? rel 5
    if container.kind.isSpatial then
      return ⟨container.id, [], (m.related rel 4).map (·.id)⟩
    else none
  | _ => none

/-- What all relationships say, in file order. -/
def assignments (m : LinkedModel) : List Assignment := m.entityList.filterMap m.assignment?

end LinkedModel

/-- The containers of a model, in file order. -/
structure SpatialTree where
  nodes : List SpatialNode := []
  /-- The containers that are part of no other. -/
  roots : List EntityId := []
deriving Inhabited

namespace SpatialTree

/-- The container of an entity, with all that is assigned to it. -/
def nodeOf (assignments : List Assignment) (e : LinkedEntity) : SpatialNode :=
  let own := assignments.filter (·.container = e.id)
  ⟨e.id, e.kind, e.name?, own.flatMap (·.children), own.flatMap (·.elements)⟩

/-- The spatial structure of a model. -/
def build (m : LinkedModel) : SpatialTree :=
  let assignments := m.assignments
  let nodes := (m.entityList.filter (·.kind.isSpatial)).map (nodeOf assignments)
  let parts := assignments.flatMap (·.children)
  ⟨nodes, (nodes.map (·.id)).filter (!parts.contains ·)⟩

/-- The container with a number. -/
def node? (tree : SpatialTree) (id : EntityId) : Option SpatialNode :=
  tree.nodes.find? (·.id == id)

/-- How many containers there are. -/
def size (tree : SpatialTree) : Nat := tree.nodes.length

/-- The steps that a list of containers can still cause. -/
def nodeWork (nodes : List SpatialNode) : Nat := Number.sumOf (·.children.length + 1) nodes

/-- Visiting a container uses up its share of the work. -/
theorem nodeWork_eraseP {nodes : List SpatialNode} {node : SpatialNode} {id : EntityId}
    (h : nodes.find? (·.id == id) = some node) :
    nodeWork (nodes.eraseP (·.id == id)) + node.children.length + 1 = nodeWork nodes := by
  induction nodes with
  | nil => simp at h
  | cons n ns ih =>
    by_cases hn : (n.id == id) = true
    · rw [List.find?_cons_of_pos (by exact hn)] at h
      simp only [Option.some.injEq] at h
      subst h
      rw [List.eraseP_cons_of_pos (by exact hn)]
      simp only [nodeWork, Number.sumOf_cons]
      omega
    · rw [List.find?_cons_of_neg (by exact hn)] at h
      rw [List.eraseP_cons_of_neg (by exact hn)]
      have := ih h
      simp only [nodeWork, Number.sumOf_cons] at *
      omega

/-- The elements held by the containers that are yet to be visited, where `unseen` are the containers
that have not been visited. Each container is visited once. -/
def collect (unseen : List SpatialNode) (todo : List EntityId) : List EntityId :=
  match todo with
  | [] => []
  | id :: todo =>
    match _h : unseen.find? (·.id == id) with
    | some node => node.elements ++ collect (unseen.eraseP (·.id == id)) (node.children ++ todo)
    | none => collect unseen todo
termination_by nodeWork unseen + todo.length
decreasing_by
  · have := nodeWork_eraseP _h
    simp only [List.length_append, List.length_cons]
    omega
  · simp only [List.length_cons]
    omega

/-- The elements held by a container or any container below it. -/
def elementsUnder (tree : SpatialTree) (id : EntityId) : List EntityId := collect tree.nodes [id]

end SpatialTree

end BuildingModel
