import BuildingModel.Proofs.Walk.Coherent

/-!
# First trails

Which entities the walk marks as lying on a cycle, said without the walk. A trail is a path of references
that visits no entity twice. Trails are ordered by their first difference: the lower place comes first
among starting points, the earlier reference among the references of an entity. The path of the walk is
always the first of all trails to its end (`Coherent.firstTrail`), so the walk marks an entity exactly if
it lies between the end of a first trail and an entity of that trail that the end refers back to
(`ClosedByFirstTrail`, `runAll_cyclic_iff`).

Every such entity lies on a cycle, but an entity of a cycle need not be of this form: it may be that all
first trails to the entities of the cycle leave it out. Still no cycle is missed as a whole, since chains
of references end unless they pass a marked entity (`runAll_chainsEnd`).
-/

namespace BuildingModel

open Relation

namespace Walk

/-- What lies on a loop is its entry, or comes after it in the trail. -/
lemma exists_of_mem_loop {trail : List Nat} {entry i : Nat} (he : entry ∈ trail)
    (hi : i ∈ loop trail entry) : i = entry ∨ ∃ s t r, trail = s ++ i :: (t ++ entry :: r) := by
  induction trail with
  | nil => cases he
  | cons a trail ih =>
    by_cases ha : a = entry
    · subst ha
      exact .inl (by simpa [loop] using hi)
    · have hi' : i = a ∨ i ∈ loop trail entry := by simpa [loop, ha] using hi
      have he' : entry ∈ trail := by simpa [Ne.symm ha] using he
      obtain rfl | hi' := hi'
      · obtain ⟨t, r, rfl⟩ := List.append_of_mem he'
        exact .inr ⟨[], t, r, rfl⟩
      · obtain h | ⟨s, t, r, rfl⟩ := ih he' hi'
        · exact .inl h
        · exact .inr ⟨a :: s, t, r, rfl⟩

end Walk

namespace References

variable {g : References}

/-- A path of references, its end first, that visits no entity twice. -/
inductive Trail (g : References) : List Nat → Prop where
  | root {r} :
    r < g.all.size →
    Trail g [r]
  | step {a b l} :
    Trail g (a :: l) →
    g.Refers a b →
    b ∉ a :: l →
    Trail g (b :: a :: l)

/-- After the trail `l`, the walk looks at `y` before it looks at `z`. -/
def Earlier (g : References) : (l : List Nat) → (y z : Nat) → Prop
  | [], y, z => y < z
  | a :: _, y, z => (g.out a).idxOf y < (g.out a).idxOf z

/-- Where the two trails part, `p` goes on to what is looked at earlier. -/
def Precedes (g : References) (p q : List Nat) : Prop :=
  ∃ l y z p' q', p = p' ++ y :: l ∧ q = q' ++ z :: l ∧ g.Earlier l y z

/-- A trail that no other trail to the same end precedes. -/
structure FirstTrail (g : References) (p : List Nat) : Prop where
  trail : g.Trail p
  first : ∀ q, g.Trail q → q.head? = p.head? → ¬ g.Precedes q p

/-- The entity at `i` lies on the first trail to some `u`, between its end and an entity that `u` refers
back to. -/
def ClosedByFirstTrail (g : References) (i : Nat) : Prop :=
  ∃ u l c, g.FirstTrail (u :: l) ∧ g.Refers u c ∧ c ∈ u :: l ∧ i ∈ Walk.loop (u :: l) c

/-- A reference from an entity that no first trail closes. -/
def RefersUnclosed (g : References) (a b : Nat) : Prop := g.Refers a b ∧ ¬ g.ClosedByFirstTrail a

/-- No entity is twice on a trail. -/
lemma Trail.nodup {p} (tr : g.Trail p) : p.Nodup := by
  induction tr with
  | root _ => exact List.nodup_singleton _
  | step _ _ hb ih => exact List.nodup_cons.mpr ⟨hb, ih⟩

/-- A trail stays among the entities. -/
lemma Trail.lt_size {p} (tr : g.Trail p) {i} (hi : i ∈ p) : i < g.all.size := by
  induction tr with
  | root hr => exact List.mem_singleton.mp hi ▸ hr
  | step _ hab _ ih =>
    obtain rfl | hi := List.mem_cons.mp hi
    · exact hab.2
    · exact ih hi

/-- A trail without its end is a trail. -/
lemma Trail.tail {b t} (tr : g.Trail (b :: t)) (ht : t ≠ []) : g.Trail t := by
  cases tr with
  | root _ => exact absurd rfl ht
  | step tr _ _ => exact tr

/-- So is any part from its start on. -/
lemma Trail.of_append {p' z l} (tr : g.Trail (p' ++ z :: l)) : g.Trail (z :: l) := by
  induction p' with
  | nil => exact tr
  | cons a p' ih => exact ih (tr.tail (by simp))

/-- Each entity of a trail refers to the next. -/
lemma Trail.refers {b a l} (tr : g.Trail (b :: a :: l)) : g.Refers a b := by
  cases tr with
  | step _ hab _ => exact hab

/-- The end of a trail is reached from each of its members, without passing what comes before. -/
lemma Trail.reaches {q' y l x} (tr : g.Trail (q' ++ y :: l)) (hx : (q' ++ y :: l).head? = some x) :
    ReflTransGen (fun a b => g.Refers a b ∧ b ∉ l) y x := by
  induction q' generalizing x with
  | nil =>
    obtain rfl : y = x := by simpa using hx
    exact .refl
  | cons b q' ih =>
    obtain rfl : b = x := by simpa using hx
    have hnd := tr.nodup
    rw [List.cons_append, List.nodup_cons] at hnd
    have hne : q' ++ y :: l ≠ [] := by simp
    have tr' : g.Trail (q' ++ y :: l) := Trail.tail tr hne
    obtain ⟨a, t, hq⟩ := List.exists_cons_of_ne_nil hne
    have hrest := ih (x := a) tr' (by simp [hq])
    rw [List.cons_append, hq] at tr
    exact hrest.tail ⟨tr.refers, fun hbl => hnd.1 (by simp [hbl])⟩

/-- Two lists end in the same way, or they part somewhere. -/
lemma exists_parting (p q : List Nat) : p <:+ q ∨ q <:+ p ∨
    ∃ l y z p' q', p = p' ++ y :: l ∧ q = q' ++ z :: l ∧ y ≠ z := by
  induction p using List.reverseRecOn generalizing q with
  | nil => exact .inl (List.nil_suffix)
  | append_singleton p y ih =>
    cases q using List.reverseRecOn with
    | nil => exact .inr (.inl List.nil_suffix)
    | append_singleton q z =>
      by_cases hyz : y = z
      · subst hyz
        obtain ⟨t, rfl⟩ | ⟨t, rfl⟩ | ⟨l, a, b, p', q', rfl, rfl, hab⟩ := ih q
        · exact .inl ⟨t, by simp⟩
        · exact .inr (.inl ⟨t, by simp⟩)
        · exact .inr (.inr ⟨l ++ [y], a, b, p', q', by simp, by simp, hab⟩)
      · exact .inr (.inr ⟨[], y, z, p, q, rfl, rfl, hyz⟩)

/-- Where two trails part, one of them goes on to what is looked at earlier. -/
lemma earlier_or_earlier {p' q' l y z} (tp : g.Trail (p' ++ y :: l)) (tq : g.Trail (q' ++ z :: l))
    (hyz : y ≠ z) : g.Earlier l y z ∨ g.Earlier l z y := by
  cases l with
  | nil => exact Nat.lt_or_gt_of_ne hyz
  | cons a l =>
    have hy : y ∈ g.out a := tp.of_append.refers.1
    apply Nat.lt_or_gt_of_ne
    intro hidx
    exact hyz ((List.idxOf_inj hy).mp hidx)

/-- A trail that begins another one with the same end is that trail. -/
lemma Trail.eq_of_suffix {p q} (tq : g.Trail q) (hhead : p.head? = q.head?) (hs : p <:+ q) :
    p = q := by
  obtain ⟨t, rfl⟩ := hs
  cases t with
  | nil => rfl
  | cons a t =>
    have hnd := tq.nodup
    rw [List.cons_append, List.nodup_cons] at hnd
    have ha : p.head? = some a := by simpa using hhead
    exact absurd (List.mem_append_right t (List.mem_of_head? ha)) hnd.1

/-- There is one first trail to an end. -/
theorem FirstTrail.unique {p q} (fp : g.FirstTrail p) (fq : g.FirstTrail q)
    (hhead : p.head? = q.head?) : p = q := by
  obtain hs | hs | ⟨l, y, z, p', q', rfl, rfl, hyz⟩ := exists_parting p q
  · exact fq.trail.eq_of_suffix hhead hs
  · exact (fp.trail.eq_of_suffix hhead.symm hs).symm
  · exfalso
    obtain h | h := earlier_or_earlier fp.trail fq.trail hyz
    · exact fq.first _ fp.trail hhead ⟨l, y, z, p', q', rfl, rfl, h⟩
    · exact fp.first _ fq.trail hhead.symm ⟨l, z, y, q', p', rfl, rfl, h⟩

/-- What a first trail closes lies on a cycle. -/
lemma ClosedByFirstTrail.onCycle {i} (hi : g.ClosedByFirstTrail i) : TransGen g.Refers i i := by
  obtain ⟨u, l, c, ft, huc, hc, hi⟩ := hi
  have weaken {l : List Nat} {a b : Nat} (h : ReflTransGen (fun a b => g.Refers a b ∧ b ∉ l) a b) :
      ReflTransGen g.Refers a b := ReflTransGen.mono (fun _ _ h => h.1) a b h
  -- the loop leads from `c` to `i`, from there to `u`, and back to `c`
  have hiu : ReflTransGen g.Refers i u := by
    obtain ⟨s, t, hst⟩ := List.append_of_mem (Walk.mem_of_mem_loop hc hi)
    have tr := ft.trail
    rw [hst] at tr
    exact weaken (tr.reaches (by rw [← hst]; rfl))
  have hci : ReflTransGen g.Refers c i := by
    obtain rfl | ⟨s, t, r, hst⟩ := Walk.exists_of_mem_loop hc hi
    · exact .refl
    · have tr := ft.trail
      rw [hst] at tr
      have tr' : g.Trail ((i :: t) ++ c :: r) := tr.of_append
      exact weaken (tr'.reaches rfl)
  exact .trans_right hiu (.trans_left (.single huc) hci)

end References

namespace Walk

variable {g : References} {w w' : Walk}

/-- The entities of a path form a trail that can go on to what its end is following. -/
lemma Accounted.trail {c path} (ha : Accounted g w [c] path)
    (hlt : ∀ i ∈ c :: path.map (·.node), i < g.all.size) (hnd : (c :: path.map (·.node)).Nodup) :
    g.Trail (c :: path.map (·.node)) := by
  induction path generalizing c with
  | nil => exact .root (hlt c (by simp))
  | cons f path ih =>
    obtain ⟨⟨followed, hout, -⟩, hrest⟩ := ha
    rw [List.map_cons] at hlt hnd ⊢
    obtain ⟨hc, hnd⟩ := List.nodup_cons.mp hnd
    refine .step (ih hrest (fun i hi => hlt i (List.mem_cons_of_mem c hi)) hnd) ⟨?_, hlt c (by simp)⟩ hc
    rw [hout]
    simp

/-- A part of a path that is accounted for is so by itself. -/
lemma Accounted.of_append {c path p' z l} (ha : Accounted g w [c] path)
    (hsplit : c :: path.map (·.node) = p' ++ z :: l) :
    ∃ outer, Accounted g w [z] outer ∧ outer.map (·.node) = l := by
  induction path generalizing c p' with
  | nil =>
    cases p' with
    | nil =>
      obtain ⟨rfl, rfl⟩ := List.cons.inj hsplit
      exact ⟨[], ha, rfl⟩
    | cons a p' => simp at hsplit
  | cons f path ih =>
    cases p' with
    | nil =>
      obtain ⟨rfl, rfl⟩ := List.cons.inj hsplit
      exact ⟨f :: path, ha, rfl⟩
    | cons a p' =>
      obtain ⟨-, hsplit⟩ := List.cons.inj hsplit
      exact ih ha.2 hsplit

/-- What is looked at before the reference that the end of a path is following has been followed. -/
lemma Accounted.followed_of_earlier {y z f path} (ha : Accounted g w [z] (f :: path))
    (hearlier : g.Earlier (f.node :: path.map (·.node)) y z) :
    Followed g w (f.node :: path.map (·.node)) y := by
  obtain ⟨⟨followed, hout, hall⟩, -⟩ := ha
  apply hall
  simp only [References.Earlier, hout] at hearlier
  by_contra hy
  have hz : (followed ++ [z] ++ f.todo).idxOf z ≤ followed.length := by
    rw [List.append_assoc, List.idxOf_append]
    split
    · exact List.idxOf_le_length
    · simp
  rw [List.append_assoc, List.idxOf_append_of_notMem hy, ← List.append_assoc] at hearlier
  omega

/-- A trail that parts from a path by going on to what is looked at earlier ends in a done entity. -/
lemma Accounted.done_of_earlier {q' y z path x} (hsize : w.visits.size = g.all.size)
    (ha : Accounted g w [z] path) (hearlier : g.Earlier (path.map (·.node)) y z)
    (tr : g.Trail (q' ++ y :: path.map (·.node)))
    (hx : (q' ++ y :: path.map (·.node)).head? = some x) : w.visits[x]? = some .done := by
  have hreach := tr.reaches hx
  cases path with
  | nil => exact (ha z (by simp)).2 y hearlier x hreach
  | cons f path =>
    have hy := tr.of_append
    cases ha.followed_of_earlier hearlier with
    | outside h =>
      rw [Array.getElem?_eq_none_iff, hsize] at h
      exact absurd (hy.lt_size (by simp)) (Nat.not_lt.mpr h)
    | back h _ => exact absurd h (List.nodup_cons.mp hy.nodup).1
    | settled hs => exact hs x hreach

/-- The path of the walk is the first trail to its end. -/
theorem Coherent.firstTrail (coh : Coherent g w) {f path} (hp : w.path = f :: path) :
    g.FirstTrail (f.node :: path.map (·.node)) := by
  have hnodes : w.nodes = f.node :: path.map (·.node) := by simp [nodes, hp]
  have hopen : ∀ i ∈ f.node :: path.map (·.node), w.visits[i]? = some .open := by
    rw [← hnodes]
    exact fun i hi => (coh.open_iff i).mpr hi
  have hlt : ∀ i ∈ f.node :: path.map (·.node), i < g.all.size :=
    fun i hi => coh.sized ▸ (Array.getElem?_eq_some_iff.mp (hopen i hi)).1
  have hnd := coh.nodup
  rw [hnodes] at hnd
  have ha := coh.path
  rw [hp] at ha
  refine ⟨ha.2.trail hlt hnd, ?_⟩
  rintro q tq hhead ⟨l, y, z, q', p', rfl, hsplit, hearlier⟩
  -- where `q` parts from the path, everything beyond is done, its end included
  obtain ⟨outer, houter, rfl⟩ := ha.2.of_append hsplit
  have hdone := houter.done_of_earlier coh.sized hearlier tq (hhead.trans rfl)
  rw [hopen f.node (by simp)] at hdone
  cases hdone

/-- All marked entities are closed by a first trail. -/
def MarkedOnly (g : References) (w : Walk) : Prop :=
  ∀ i, w.statusAt i = .cyclic → g.ClosedByFirstTrail i

/-- All entities that a first trail to a done entity closes are marked. -/
def MarkedAll (g : References) (w : Walk) : Prop :=
  ∀ u l c, w.visits[u]? = some .done → g.FirstTrail (u :: l) → g.Refers u c → c ∈ u :: l →
    ∀ i ∈ loop (u :: l) c, w.statusAt i = .cyclic

/-- A step marks only what a first trail closes. The case that marks anything is the way back to an open entity. -/
lemma Step.markedOnly (st : Step g w w') (coh : Coherent g w) (hm : MarkedOnly g w) :
    MarkedOnly g w' := by
  intro i hi
  cases st with
  | root | enter | pass => exact hm i hi
  | @back node child todo path hp hc =>
    rw [statusAt_closeCycle, segment_eq_loop hp] at hi
    split at hi
    · rename_i hmem
      have hnodes : w.nodes = node :: path.map (·.node) := by simp [nodes, hp]
      have hchild : child ∈ w.nodes := (coh.open_iff child).mp hc
      rw [hnodes] at hmem hchild
      exact ⟨node, path.map (·.node), child, coh.firstTrail hp, coh.refers hp hc, hchild, hmem.1⟩
    · exact hm i hi
  | leave hp =>
    rw [statusAt_leave] at hi
    split at hi
    · cases hi
    · exact hm i hi

/-- A step marks all that a first trail to a done entity closes. The case that makes an entity done is leaving it. -/
lemma Step.markedAll (st : Step g w w') (coh : Coherent g w) (hm : MarkedAll g w) :
    MarkedAll g w' := by
  intro u l c hu ft huc hc i hi
  have old (hu : w.visits[u]? = some .done) : w'.statusAt i = .cyclic :=
    st.cyclic (hm u l c hu ft huc hc i hi)
  obtain hdone | ⟨path, hp, rfl⟩ := st.done_inv hu
  · exact old hdone
  · -- the path is the first trail to the entity that is left
    have hl := (coh.firstTrail hp).unique ft rfl
    obtain ⟨-, rfl⟩ := List.cons.inj hl
    apply st.cyclic
    cases coh.followed_of_leave hp c huc.1 with
    | outside h =>
      rw [Array.getElem?_eq_none_iff, coh.sized] at h
      exact absurd huc.2 (Nat.not_lt.mpr h)
    | back _ hloop => exact hloop i hi
    | settled hs =>
      have hnodes : w.nodes = u :: path.map (·.node) := by simp [nodes, hp]
      have hdone := hs c .refl
      rw [(coh.open_iff c).mpr (hnodes ▸ hc)] at hdone
      cases hdone

/-- From done entities, chains of references end unless they pass an entity that a first trail closes. -/
def ChainsEnd (g : References) (w : Walk) : Prop :=
  ∀ a : Nat, w.visits[a]? = some .done → Acc (fun b a => g.RefersUnclosed a b) a

/-- A step keeps the ends of chains. -/
lemma Step.chainsEnd (st : Step g w w') (coh : Coherent g w) (hm : MarkedOnly g w)
    (hends : ChainsEnd g w) : ChainsEnd g w' := by
  intro a ha
  obtain hdone | ⟨path, hp, rfl⟩ := st.done_inv ha
  · exact hends a hdone
  · -- all that an unmarked entity refers to has been left before it
    refine .intro a fun b hb => ?_
    cases coh.followed_of_leave hp b hb.1.1 with
    | outside h =>
      rw [Array.getElem?_eq_none_iff, coh.sized] at h
      exact absurd hb.1.2 (Nat.not_lt.mpr h)
    | back _ hloop => exact absurd (hm a (hloop a (head_mem_loop a b _))) hb.2
    | settled hs => exact hends b (hs b .refl)

/-- The walk ends coherent, with exactly the marks of first trails. -/
lemma runAll_marked {status : Array Status} (hsize : status.size = g.all.size)
    (hstart : ∀ i, status.getD i .ok ≠ .cyclic) :
    Coherent g (runAll g status) ∧ MarkedOnly g (runAll g status) ∧ MarkedAll g (runAll g status) ∧
      ChainsEnd g (runAll g status) := by
  apply runAll_induction (P := fun w => Coherent g w ∧ MarkedOnly g w ∧ MarkedAll g w ∧ ChainsEnd g w)
  · have hnone : ∀ a : Nat, (start status).visits[a]? ≠ some .done := by
      simp [start, Array.getElem?_replicate]
    exact ⟨.start hsize, fun j hj => absurd hj (hstart j), fun u _ _ hu => absurd hu (hnone u),
      fun a ha => absurd ha (hnone a)⟩
  · rintro w w' ⟨coh, honly, hall, hends⟩ st
    exact ⟨st.coherent coh, st.markedOnly coh honly, st.markedAll coh hall, st.chainsEnd coh honly hends⟩

/-- At the end of the walk, exactly the entities that a first trail closes are marked. -/
theorem runAll_cyclic_iff {status : Array Status} (hsize : status.size = g.all.size)
    (hstart : ∀ i, status.getD i .ok ≠ .cyclic) (i : Nat) :
    (runAll g status).statusAt i = .cyclic ↔ g.ClosedByFirstTrail i := by
  obtain ⟨-, honly, hall, -⟩ := runAll_marked hsize hstart
  constructor
  · exact honly i
  · rintro ⟨u, l, c, ft, huc, hc, hi⟩
    have hu : u < g.all.size := ft.trail.lt_size (by simp)
    exact hall u l c (runAll_done hsize hu) ft huc hc i hi

/-- Chains of references end unless they pass an entity that a first trail closes. -/
theorem runAll_chainsEnd {status : Array Status} (hsize : status.size = g.all.size)
    (hstart : ∀ i, status.getD i .ok ≠ .cyclic) {a : Nat} (ha : a < g.all.size) :
    Acc (fun b a => g.RefersUnclosed a b) a :=
  (runAll_marked hsize hstart).2.2.2 a (runAll_done hsize ha)

end Walk

end BuildingModel
