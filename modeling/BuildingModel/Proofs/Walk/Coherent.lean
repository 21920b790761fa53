import BuildingModel.Proofs.Walk.Step

/-!
# Coherence of the walk

The invariant of the walk. Visits and path agree (`Coherent.open_iff`), no reference leads from a done
entity to an unseen one (`Coherent.closed`), and for every entity on the path the references that have
already been followed are accounted for (`Coherent.path`): such a reference leads out of the model, or
back to the path, in which case the entities from there on are marked, or from it nothing can be reached
any more that is not done, except through the path (`Settled`).

`Step.coherent` shows that every step keeps it.
-/

namespace BuildingModel

open Relation

/-- There is a reference from `a` to the entity at `b`. -/
def References.Refers (g : References) (a b : Nat) : Prop := b ∈ g.out a ∧ b < g.all.size

namespace Walk

variable {g : References} {w w' : Walk}

/-- The part of a trail, which ends with its first member, from `entry` on. -/
def loop (trail : List Nat) (entry : Nat) : List Nat := trail.takeWhile (· ≠ entry) ++ [entry]

/-- The end of a trail is on the loop that it closes. -/
lemma head_mem_loop (a entry : Nat) (trail : List Nat) : a ∈ loop (a :: trail) entry := by
  by_cases h : a = entry <;> simp [loop, h]

/-- A loop is a part of its trail. -/
lemma mem_of_mem_loop {trail : List Nat} {entry i : Nat} (he : entry ∈ trail)
    (hi : i ∈ loop trail entry) : i ∈ trail := by
  rw [loop, List.mem_append, List.mem_singleton] at hi
  obtain hi | rfl := hi
  · exact (List.takeWhile_prefix _).subset hi
  · exact he

/-- What a reference back to `child` closes is a loop of the path. -/
lemma segment_eq_loop {node child todo path} (hp : w.path = ⟨node, child :: todo⟩ :: path) :
    ({ w with path := ⟨node, todo⟩ :: path } : Walk).segment child = loop w.nodes child := by
  simp [segment, loop, nodes, hp]

/-- All that can be reached from `c` without passing `trail` is done. -/
def Settled (g : References) (w : Walk) (trail : List Nat) (c : Nat) : Prop :=
  ∀ d, ReflTransGen (fun a b => g.Refers a b ∧ b ∉ trail) c d → w.visits[d]? = some .done

/-- What has become of a reference to `c` that the end of `trail` has followed. -/
inductive Followed (g : References) (w : Walk) (trail : List Nat) (c : Nat) : Prop where
  | outside : w.visits[c]? = none → Followed g w trail c
  | back : c ∈ trail → (∀ i ∈ loop trail c, w.statusAt i = .cyclic) → Followed g w trail c
  | settled : Settled g w trail c → Followed g w trail c

/-- The references of all entities of a path are accounted for. The innermost of them is just
following a reference to each member of `current`, of which there is at most one. A path starts at an
entity before which all others are settled. -/
def Accounted (g : References) (w : Walk) : (current : List Nat) → (path : List Frame) → Prop
  | current, [] => ∀ r ∈ current, r < g.all.size ∧ ∀ i < r, Settled g w [] i
  | current, f :: path =>
    (∃ followed, g.out f.node = followed ++ current ++ f.todo ∧
      ∀ c ∈ followed, Followed g w (f.node :: path.map (·.node)) c) ∧
    Accounted g w [f.node] path

/-- The invariant of the walk. -/
structure Coherent (g : References) (w : Walk) : Prop where
  sized : w.visits.size = g.all.size
  status_sized : w.status.size = g.all.size
  open_iff : ∀ i : Nat, w.visits[i]? = some .open ↔ i ∈ w.nodes
  nodup : w.nodes.Nodup
  path : Accounted g w [] w.path
  closed : ∀ a b, w.visits[a]? = some .done → g.Refers a b →
    w.visits[b]? = some .done ∨ w.visits[b]? = some .open

/-- What is settled stays settled. -/
lemma Settled.step {trail c} (hs : Settled g w trail c) (st : Step g w w') :
    Settled g w' trail c :=
  fun d hd => st.done (hs d hd)

/-- What has been followed stays followed. -/
lemma Followed.step {trail c} (hf : Followed g w trail c) (st : Step g w w') :
    Followed g w' trail c := by
  cases hf with
  | outside h =>
    apply Followed.outside
    rw [Array.getElem?_eq_none_iff] at h ⊢
    rw [st.size_eq.1]
    exact h
  | back hc hl => exact .back hc (fun i hi => st.cyclic (hl i hi))
  | settled hs => exact .settled (hs.step st)

/-- What is accounted for stays accounted for. -/
lemma Accounted.step {current path} (ha : Accounted g w current path) (st : Step g w w') :
    Accounted g w' current path := by
  induction path generalizing current with
  | nil => exact fun r hr => ⟨(ha r hr).1, fun i hi => ((ha r hr).2 i hi).step st⟩
  | cons f path ih =>
    obtain ⟨⟨followed, hout, hall⟩, hrest⟩ := ha
    exact ⟨⟨followed, hout, fun c hc => (hall c hc).step st⟩, ih hrest⟩

/-- The innermost entity is done with the reference that it was following. -/
lemma Accounted.advance {node child todo path}
    (ha : Accounted g w [] (⟨node, child :: todo⟩ :: path))
    (hc : Followed g w (node :: path.map (·.node)) child) :
    Accounted g w [] (⟨node, todo⟩ :: path) := by
  obtain ⟨⟨followed, hout, hall⟩, hrest⟩ := ha
  refine ⟨⟨followed ++ [child], by simpa using hout, ?_⟩, hrest⟩
  intro c hmem
  obtain hmem | hmem := List.mem_append.mp hmem
  · exact hall c hmem
  · rw [List.mem_singleton.mp hmem]
    exact hc

/-- An entity that follows a reference into an unseen one has not yet accounted for it. -/
lemma Accounted.descend {node child todo path}
    (ha : Accounted g w [] (⟨node, child :: todo⟩ :: path)) :
    Accounted g w [child] (⟨node, todo⟩ :: path) := by
  obtain ⟨⟨followed, hout, hall⟩, hrest⟩ := ha
  exact ⟨⟨followed, by simpa using hout, hall⟩, hrest⟩

/-- When all references of an entity are accounted for, all that is reached from it without passing
the rest of its path is done as soon as the entity itself is. -/
lemma Settled.of_followed {x trail} (hx : w'.visits[x]? = some .done)
    (hdone : ∀ i : Nat, w.visits[i]? = some .done → w'.visits[i]? = some .done)
    (hsize : w.visits.size = g.all.size)
    (hall : ∀ c ∈ g.out x, Followed g w (x :: trail) c) : Settled g w' trail x := by
  -- every entity reached is `x` itself or lies beyond a reference of `x` that leaves the path
  have key : ∀ d, ReflTransGen (fun a b => g.Refers a b ∧ b ∉ trail) x d →
      d = x ∨ ∃ c ∈ g.out x, c < g.all.size ∧ c ∉ x :: trail ∧
        ReflTransGen (fun a b => g.Refers a b ∧ b ∉ x :: trail) c d := by
    intro d hd
    induction hd with
    | refl => exact .inl rfl
    | @tail d e _ hde ih =>
      by_cases he : e = x
      · exact .inl he
      · have hnot : e ∉ x :: trail := by simp [he, hde.2]
        refine .inr ?_
        obtain rfl | ⟨c, hc, hlt, hcx, hcd⟩ := ih
        · exact ⟨e, hde.1.1, hde.1.2, hnot, .refl⟩
        · exact ⟨c, hc, hlt, hcx, hcd.tail ⟨hde.1, hnot⟩⟩
  intro d hd
  obtain rfl | ⟨c, hc, hlt, hcx, hcd⟩ := key d hd
  · exact hx
  · cases hall c hc with
    | outside h =>
      rw [Array.getElem?_eq_none_iff] at h
      omega
    | back h _ => exact absurd h hcx
    | settled hs => exact hdone d (hs d hcd)

/-- From a done entity, nothing but done entities can be reached without passing the path. -/
lemma Coherent.settled_nodes (coh : Coherent g w) {c : Nat} (hc : w.visits[c]? = some .done) :
    Settled g w w.nodes c := by
  intro d hd
  induction hd with
  | refl => exact hc
  | tail _ hde ih =>
    obtain h | h := coh.closed _ _ ih hde.1
    · exact h
    · exact absurd ((coh.open_iff _).mp h) hde.2

/-- The walk starts coherent. -/
lemma Coherent.start {status : Array Status} (hsize : status.size = g.all.size) :
    Coherent g (start status) where
  sized := by simp [Walk.start, hsize]
  status_sized := hsize
  open_iff i := by
    simp only [Walk.start, nodes, List.map_nil, List.not_mem_nil, iff_false]
    intro h
    simp [Array.getElem?_replicate] at h
  nodup := by simp [nodes, Walk.start]
  path := nofun
  closed a b ha := by simp [Walk.start, Array.getElem?_replicate] at ha

/-- While the path is empty, all entities that have been seen are done. -/
lemma Coherent.done_of_seen (coh : Coherent g w) (hp : w.path = []) {i : Nat} (hi : i < w.visits.size)
    (hseen : w.visits[i]? ≠ some .unseen) : w.visits[i]? = some .done := by
  have hopen : w.visits[i]? ≠ some .open := by
    rw [Ne, coh.open_iff, nodes, hp]
    exact List.not_mem_nil
  rw [Array.getElem?_eq_getElem hi] at hseen hopen ⊢
  cases h : w.visits[i] with
  | unseen => exact absurd (congrArg some h) hseen
  | «open» => exact absurd (congrArg some h) hopen
  | done => rfl

/-- After entering an entity, the open ones are those on the path. -/
lemma Coherent.enter_open_iff (coh : Coherent g w) {c : Nat} (hc : w.visits[c]? = some .unseen)
    (i : Nat) :
    (w.visits.setIfInBounds c .open)[i]? = some .open ↔ i ∈ c :: w.nodes := by
  rw [getElem?_setIfInBounds hc, List.mem_cons, ← coh.open_iff]
  by_cases hi : i = c <;> simp [hi]

/-- An entity that has not been seen is not on the path. -/
lemma Coherent.not_mem_nodes (coh : Coherent g w) {c : Nat} (hc : w.visits[c]? = some .unseen) :
    c ∉ w.nodes := by
  intro h
  rw [← coh.open_iff, hc] at h
  cases h

/-- Entering an entity leaves done entities closed under references. -/
lemma Coherent.enter_closed (coh : Coherent g w) {c : Nat} (hc : w.visits[c]? = some .unseen) (a b : Nat)
    (ha : (w.visits.setIfInBounds c .open)[a]? = some .done) (hab : g.Refers a b) :
    (w.visits.setIfInBounds c .open)[b]? = some .done ∨
      (w.visits.setIfInBounds c .open)[b]? = some .open := by
  rw [getElem?_setIfInBounds hc] at ha ⊢
  by_cases hac : a = c
  · simp [hac] at ha
  · rw [if_neg hac] at ha
    by_cases hbc : b = c
    · simp [hbc]
    · rw [if_neg hbc]
      exact coh.closed a b ha hab

/-- Starting at an entity keeps the walk coherent. -/
lemma Coherent.root (coh : Coherent g w) {r : Nat} (hp : w.path = [])
    (hr : w.visits[r]? = some .unseen) (hbefore : ∀ i < r, w.visits[i]? ≠ some .unseen) :
    Coherent g (w.enter g r) := by
  have st : Step g w (w.enter g r) := .root hp hr hbefore
  have hrlt : r < w.visits.size := (Array.getElem?_eq_some_iff.mp hr).1
  have hnodes : w.nodes = [] := by simp [nodes, hp]
  refine
    { sized := st.size_eq.1.trans coh.sized
      status_sized := st.size_eq.2.trans coh.status_sized
      open_iff := coh.enter_open_iff hr
      nodup := List.nodup_cons.mpr ⟨coh.not_mem_nodes hr, coh.nodup⟩
      path := ?_
      closed := coh.enter_closed hr }
  show Accounted g (w.enter g r) [] (⟨r, g.out r⟩ :: w.path)
  rw [hp]
  refine ⟨⟨[], by simp, fun _ h => absurd h List.not_mem_nil⟩, ?_⟩
  intro r' hr'
  rw [List.mem_singleton.mp hr']
  refine ⟨coh.sized ▸ hrlt, fun i hi => ?_⟩
  have hdone := coh.done_of_seen hp (Nat.lt_trans hi hrlt) (hbefore i hi)
  have hs := coh.settled_nodes hdone
  rw [hnodes] at hs
  exact hs.step st

/-- Following a reference to an entity that has not been seen keeps it coherent. -/
lemma Coherent.enter (coh : Coherent g w) {node child todo path}
    (hp : w.path = ⟨node, child :: todo⟩ :: path) (hc : w.visits[child]? = some .unseen) :
    Coherent g ({ w with path := ⟨node, todo⟩ :: path }.enter g child) := by
  have st := Step.enter (g := g) hp hc
  have hnodes : w.nodes = node :: path.map (·.node) := by simp [nodes, hp]
  refine
    { sized := st.size_eq.1.trans coh.sized
      status_sized := st.size_eq.2.trans coh.status_sized
      open_iff := fun i => by simpa [nodes, hp, Walk.enter] using coh.enter_open_iff hc i
      nodup := by
        have h := List.nodup_cons.mpr ⟨coh.not_mem_nodes hc, coh.nodup⟩
        rw [hnodes] at h
        exact h
      path := ?_
      closed := coh.enter_closed hc }
  refine ⟨⟨[], by simp, fun _ h => absurd h List.not_mem_nil⟩, ?_⟩
  have ha := coh.path
  rw [hp] at ha
  exact ha.descend.step st

/-- Following a reference that enters nothing keeps coherence, if what it leads to is accounted for. -/
lemma Coherent.follow (coh : Coherent g w) {node child todo path}
    (hp : w.path = ⟨node, child :: todo⟩ :: path) (st : Step g w w') (hv : w'.visits = w.visits)
    (hp' : w'.path = ⟨node, todo⟩ :: path) (hc : Followed g w' w.nodes child) :
    Coherent g w' := by
  have hnodes : w'.nodes = w.nodes := by simp [nodes, hp, hp']
  refine
    { sized := st.size_eq.1.trans coh.sized
      status_sized := st.size_eq.2.trans coh.status_sized
      open_iff := by
        rw [hv, hnodes]
        exact coh.open_iff
      nodup := hnodes ▸ coh.nodup
      path := ?_
      closed := by
        rw [hv]
        exact coh.closed }
  have ha := coh.path.step st
  rw [hp] at ha
  rw [hp']
  apply ha.advance
  rw [show w.nodes = node :: path.map (·.node) by simp [nodes, hp]] at hc
  exact hc

/-- The entity at the end of the path refers to what it looks at next. -/
lemma Coherent.refers (coh : Coherent g w) {node child todo path}
    (hp : w.path = ⟨node, child :: todo⟩ :: path) (hc : w.visits[child]? = some .open) :
    g.Refers node child := by
  have ha := coh.path
  rw [hp] at ha
  obtain ⟨⟨followed, hout, -⟩, -⟩ := ha
  refine ⟨?_, coh.sized ▸ (Array.getElem?_eq_some_iff.mp hc).1⟩
  rw [hout]
  simp

/-- A reference back to the path marks the loop that it closes. -/
lemma Coherent.cyclic_of_back (coh : Coherent g w) {node child todo path}
    (hp : w.path = ⟨node, child :: todo⟩ :: path) (hc : w.visits[child]? = some .open) {i : Nat}
    (hi : i ∈ loop w.nodes child) :
    ({ w with path := ⟨node, todo⟩ :: path }.closeCycle child).statusAt i = .cyclic := by
  have hmem : child ∈ w.nodes := (coh.open_iff child).mp hc
  have hi' : i < w.status.size := by
    rw [coh.status_sized, ← coh.sized]
    exact (Array.getElem?_eq_some_iff.mp ((coh.open_iff i).mpr (mem_of_mem_loop hmem hi))).1
  rw [statusAt_closeCycle, segment_eq_loop hp]
  exact if_pos ⟨hi, hi'⟩

/-- Following a reference to an open entity keeps it coherent. -/
lemma Coherent.back (coh : Coherent g w) {node child todo path}
    (hp : w.path = ⟨node, child :: todo⟩ :: path) (hc : w.visits[child]? = some .open) :
    Coherent g ({ w with path := ⟨node, todo⟩ :: path }.closeCycle child) :=
  coh.follow hp (.back hp hc) rfl rfl (.back ((coh.open_iff child).mp hc) fun _ => coh.cyclic_of_back hp hc)

/-- Passing a reference to a done entity keeps it coherent. -/
lemma Coherent.pass (coh : Coherent g w) {node child todo path}
    (hp : w.path = ⟨node, child :: todo⟩ :: path) (h1 : w.visits[child]? ≠ some .unseen)
    (h2 : w.visits[child]? ≠ some .open) : Coherent g { w with path := ⟨node, todo⟩ :: path } := by
  have st : Step g w { w with path := ⟨node, todo⟩ :: path } := .pass hp h1 h2
  apply coh.follow hp st rfl rfl
  cases h : w.visits[child]? with
  | none => exact .outside h
  | some v =>
    cases v with
    | unseen => exact absurd h h1
    | «open» => exact absurd h h2
    | done => exact .settled ((coh.settled_nodes h).step st)

/-- All references of an entity that is being left are accounted for. -/
lemma Coherent.followed_of_leave (coh : Coherent g w) {node path} (hp : w.path = ⟨node, []⟩ :: path) :
    ∀ c ∈ g.out node, Followed g w (node :: path.map (·.node)) c := by
  have ha := coh.path
  rw [hp] at ha
  obtain ⟨⟨followed, hout, hall⟩, -⟩ := ha
  have hout' : g.out node = followed := by simpa using hout
  rw [hout']
  exact hall

/-- Leaving an entity keeps it coherent. All its references have been followed, so it is settled. -/
lemma Coherent.leave (coh : Coherent g w) {node path} (hp : w.path = ⟨node, []⟩ :: path) :
    Coherent g (w.leave g node path) := by
  have st : Step g w (w.leave g node path) := .leave hp
  have hnodes : w.nodes = node :: path.map (·.node) := by simp [nodes, hp]
  have hopen : w.visits[node]? = some .open := (coh.open_iff node).mpr (by simp [hnodes])
  have hnd := coh.nodup
  rw [hnodes, List.nodup_cons] at hnd
  have hvisits : ∀ i : Nat, (w.leave g node path).visits[i]? =
      if i = node then some .done else w.visits[i]? := getElem?_setIfInBounds hopen .done
  have hnode : (w.leave g node path).visits[node]? = some .done := by rw [hvisits, if_pos rfl]
  have hall := coh.followed_of_leave hp
  refine
    { sized := st.size_eq.1.trans coh.sized
      status_sized := st.size_eq.2.trans coh.status_sized
      open_iff := ?_
      nodup := hnd.2
      path := ?_
      closed := ?_ }
  · intro i
    show _ ↔ i ∈ path.map (·.node)
    rw [hvisits]
    by_cases hi : i = node
    · subst hi
      simp [hnd.1]
    · rw [if_neg hi, coh.open_iff, hnodes, List.mem_cons, or_iff_right hi]
  · show Accounted g (w.leave g node path) [] path
    have ha := coh.path
    rw [hp] at ha
    have hrest := ha.2.step st
    cases path with
    | nil => nofun
    | cons f path =>
      obtain ⟨⟨followed, hout, hf⟩, hrest⟩ := hrest
      refine ⟨⟨followed ++ [node], by simpa using hout, ?_⟩, hrest⟩
      intro c hc
      obtain hc | hc := List.mem_append.mp hc
      · exact hf c hc
      · rw [List.mem_singleton.mp hc]
        exact .settled (.of_followed hnode (fun i hi => st.done hi) coh.sized hall)
  · intro a b ha hab
    by_cases hb : b = node
    · exact .inl (hb ▸ hnode)
    · rw [hvisits b, if_neg hb]
      by_cases han : a = node
      · subst han
        cases hall b hab.1 with
        | outside h =>
          rw [Array.getElem?_eq_none_iff, coh.sized] at h
          exact absurd hab.2 (by omega)
        | back h _ =>
          refine .inr ((coh.open_iff b).mpr ?_)
          rw [hnodes]
          exact h
        | settled hs => exact .inl (hs b .refl)
      · rw [hvisits, if_neg han] at ha
        exact coh.closed a b ha hab

/-- Every step keeps it coherent. -/
theorem Step.coherent (st : Step g w w') (coh : Coherent g w) : Coherent g w' := by
  cases st with
  | root hp hr hbefore => exact coh.root hp hr hbefore
  | enter hp hc => exact coh.enter hp hc
  | back hp hc => exact coh.back hp hc
  | pass hp h1 h2 => exact coh.pass hp h1 h2
  | leave hp => exact coh.leave hp

/-- So it is coherent at the end. -/
lemma runAll_coherent {status : Array Status} (hsize : status.size = g.all.size) :
    Coherent g (runAll g status) :=
  runAll_induction (.start hsize) (fun coh st => st.coherent coh)

/-- At the end of the walk all entities are done. -/
lemma runAll_done {status : Array Status} (hsize : status.size = g.all.size) {i : Nat}
    (hi : i < g.all.size) : (runAll g status).visits[i]? = some .done := by
  have coh := runAll_coherent hsize
  exact coh.done_of_seen (runAll_path g status) (coh.sized ▸ hi) (runAll_seen g status (by omega))

end Walk

end BuildingModel
