import BuildingModel.Number.Natural

/-!
# Walking the references

A depth-first walk over the references of a model. It finds the references that lead back to an entity
on the current path, and passes breakage on along those references that feed a shape.

The walk is a state that advances step by step. Every step either enters an entity that was not
entered before, or uses up a reference of an entity on the path, or leaves an entity, and so the walk
ends.
-/

namespace BuildingModel

/-- Whether an entity can be used. -/
inductive Status where
  | ok
  /-- Something that its shape needs is missing. -/
  | unresolved
  /-- It lies on a cycle of references. -/
  | cyclic
  /-- Its shape needs an entity that cannot be used. -/
  | brokenDependency
deriving DecidableEq, Repr, Inhabited

/-- The references between the entities of a model, by place. -/
structure References where
  /-- All references of each entity, in reading order. -/
  all : Array (List Nat)
  /-- Those references that breakage travels along. -/
  shape : Array (List Nat)

namespace References

/-- The references of the entity at a place. -/
def out (g : References) (i : Nat) : List Nat := g.all.getD i []

/-- The shape references of the entity at a place. -/
def shapeOut (g : References) (i : Nat) : List Nat := g.shape.getD i []

end References

/-- How far the walk is with an entity. -/
inductive Visit where
  | unseen
  /-- It lies on the current path. -/
  | open
  | done
deriving DecidableEq, Repr, Inhabited

/-- An entity on the current path, and its references that have not been followed yet. -/
structure Frame where
  node : Nat
  todo : List Nat

/-- A reference back to an entity on the path. -/
structure CycleReport where
  /-- The entity that the reference leads back to. -/
  entry : Nat
  /-- How many entities lie on the cycle. -/
  length : Nat
deriving DecidableEq, Repr

/-- The state of the walk. -/
structure Walk where
  visits : Array Visit
  status : Array Status
  /-- The current path, innermost entity first. -/
  path : List Frame
  /-- The cycles found so far, last one first. -/
  reports : List CycleReport

namespace Walk

/-- The walk before its first step, when all that is known is which entities miss something. -/
def start (status : Array Status) : Walk :=
  ⟨Array.replicate status.size .unseen, status, [], []⟩

/-- Step into an entity. -/
def enter (g : References) (w : Walk) (node : Nat) : Walk :=
  { w with
    visits := w.visits.setIfInBounds node .open
    path := ⟨node, g.out node⟩ :: w.path }

/-- The part of the path from its inner end out to `entry`. -/
def segment (w : Walk) (entry : Nat) : List Nat :=
  (w.path.map (·.node)).takeWhile (· ≠ entry) ++ [entry]

/-- A reference leads back to `entry`: all entities from there on lie on a cycle. -/
def closeCycle (w : Walk) (entry : Nat) : Walk :=
  let members := w.segment entry
  { w with
    status := members.foldl (fun status i => status.setIfInBounds i .cyclic) w.status
    reports := ⟨entry, members.length⟩ :: w.reports }

/-- The status of the entity at a place. -/
def statusAt (w : Walk) (i : Nat) : Status := w.status.getD i .ok

/-- Leave an entity whose references have all been followed. If it is sound itself but needs something
broken, it is broken too. -/
def leave (g : References) (w : Walk) (node : Nat) (path : List Frame) : Walk :=
  let broken := w.statusAt node = .ok ∧ (g.shapeOut node).any (w.statusAt · ≠ .ok)
  { w with
    visits := w.visits.setIfInBounds node .done
    status := if broken then w.status.setIfInBounds node .brokenDependency else w.status
    path := path }

/-- The steps that entities from place `i` on can still cause before they are entered. -/
def unseenWork (g : References) : (i : Nat) → List Visit → Nat
  | _, [] => 0
  | i, v :: vs => (if v = .unseen then (g.out i).length + 2 else 0) + unseenWork g (i + 1) vs

/-- The steps that the entities on a path can still cause. -/
def pathWork (path : List Frame) : Nat := Number.sumOf (·.todo.length + 1) path

/-- A bound on the steps to come. -/
def work (g : References) (w : Walk) : Nat := unseenWork g 0 w.visits.toList + pathWork w.path

/-- Entering an entity uses up its share of the work. -/
theorem unseenWork_set (g : References) (vs : List Visit) (v : Visit) (hv : v ≠ .unseen) (i j : Nat)
    (h : vs[j]? = some .unseen) :
    unseenWork g i (vs.set j v) + (g.out (i + j)).length + 2 = unseenWork g i vs := by
  induction vs generalizing i j with
  | nil => simp at h
  | cons u us ih =>
    cases j with
    | zero =>
      simp only [List.getElem?_cons_zero, Option.some.injEq] at h
      subst h
      simp only [List.set_cons_zero, unseenWork, hv, if_false, if_true, Nat.add_zero]
      omega
    | succ j =>
      simp only [List.getElem?_cons_succ] at h
      have := ih (i + 1) j h
      simp only [List.set_cons_succ, unseenWork]
      rw [show i + (j + 1) = i + 1 + j by omega]
      omega

/-- Marking an entity as seen never adds work. -/
theorem unseenWork_set_le (g : References) (vs : List Visit) (v : Visit) (hv : v ≠ .unseen)
    (i j : Nat) : unseenWork g i (vs.set j v) ≤ unseenWork g i vs := by
  induction vs generalizing i j with
  | nil => simp
  | cons u us ih =>
    cases j with
    | zero =>
      simp only [List.set_cons_zero, unseenWork, hv, if_false]
      omega
    | succ j =>
      have := ih (i + 1) j
      simp only [List.set_cons_succ, unseenWork]
      omega

/-- Walk on until the path is empty. -/
def run (g : References) (w : Walk) : Walk :=
  match _hp : w.path with
  | [] => w
  | ⟨node, child :: todo⟩ :: path =>
    let on : Walk := { w with path := ⟨node, todo⟩ :: path }
    match _hv : w.visits[child]? with
    | some .unseen => run g (on.enter g child)
    | some .open => run g (on.closeCycle child)
    | _ => run g on
  | ⟨node, []⟩ :: path => run g (w.leave g node path)
termination_by w.work g
decreasing_by
  · have := unseenWork_set g w.visits.toList .open (by decide) 0 child (by simpa using _hv)
    simp only [work, enter, _hp, pathWork, Array.toList_setIfInBounds, Number.sumOf_cons,
      List.length_cons, Nat.zero_add] at *
    omega
  · simp only [work, closeCycle, _hp, pathWork, Number.sumOf_cons, List.length_cons]
    omega
  · simp only [work, _hp, pathWork, Number.sumOf_cons, List.length_cons]
    omega
  · have := unseenWork_set_le g w.visits.toList .done (by decide) 0 node
    simp only [work, leave, _hp, pathWork, Array.toList_setIfInBounds, Number.sumOf_cons,
      List.length_nil] at *
    omega

/-- Walk from an entity, unless the walk has been there. -/
def runFrom (g : References) (w : Walk) (root : Nat) : Walk :=
  if w.visits[root]? = some .unseen then (w.enter g root).run g else w

/-- Walk from all entities in order. -/
def runAll (g : References) (status : Array Status) : Walk :=
  (List.range status.size).foldl (runFrom g) (start status)

end Walk

end BuildingModel
