import BuildingModel.Proofs.Linked.Cycles
import BuildingModel.Proofs.Linked.Problems

/-!
# The reports of cycles

When the walk meets a reference back to an entity of its path, the entities from there on form a circuit: each
refers to the next, and the last one back to the first. They are distinct, and all are marked. So every report
of the walk is about a circuit of the length that it gives (`Walk.Reported`). There is a report as soon as an
entity is marked, and no cycle is without a marked entity. Hence nothing is reported exactly if there is no
cycle (`ExchangeFile.link_reportsCycles`).
-/

namespace BuildingModel

open Relation

/-- Different places of which each is related to the next, and the last one to the first. -/
structure Circuit (r : Nat → Nat → Prop) (ring : Cycle Nat) : Prop where
  nodup : ring.Nodup
  chain : ring.Chain r

/-! ## What the walk reports -/

namespace Walk

/-- A loop is the inner part of its trail. -/
lemma exists_loop_append {trail : List Nat} {entry : Nat} (he : entry ∈ trail) :
    ∃ outer, loop trail entry ++ outer = trail := by
  induction trail with
  | nil => cases he
  | cons a trail ih =>
    by_cases ha : a = entry
    · exact ⟨trail, by simp [loop, ha]⟩
    · have he' : entry ∈ trail := by simpa [Ne.symm ha] using he
      obtain ⟨outer, houter⟩ := ih he'
      exact ⟨outer, by simpa [loop, ha] using houter⟩

/-- A loop begins with the end of its trail. -/
lemma head?_loop (a entry : Nat) (trail : List Nat) : (loop (a :: trail) entry).head? = some a := by
  by_cases ha : a = entry
  · simp [loop, ha]
  · simp [loop, ha]

end Walk

namespace References

variable {g : References}

/-- Along a trail, each entity is referred to from the next. -/
lemma Trail.isChain {p} (tr : g.Trail p) : p.IsChain fun b a => g.Refers a b := by
  induction tr with
  | root _ => exact .singleton _
  | step _ hab _ ih => exact .cons_cons hab ih

/-- A reference from the end of a trail back to an entity of it closes a circuit. -/
lemma Trail.circuit {u l c} (tr : g.Trail (u :: l)) (huc : g.Refers u c) (hc : c ∈ u :: l) :
    Circuit g.Refers ((Walk.loop (u :: l) c).reverse : Cycle Nat) := by
  obtain ⟨outer, houter⟩ := Walk.exists_loop_append hc
  have hchain := tr.isChain
  have hnodup := tr.nodup
  rw [← houter] at hchain hnodup
  constructor
  · rw [Cycle.nodup_coe_iff, List.nodup_reverse]
    exact hnodup.of_append_left
  · -- read backwards, the loop goes on from its entry to its end, which refers to the entry
    have hback : (c :: Walk.loop (u :: l) c).IsChain fun b a => g.Refers a b := by
      refine List.isChain_cons.mpr ⟨?_, hchain.left_of_append⟩
      intro y hy
      rw [Walk.head?_loop, Option.mem_some_iff] at hy
      exact hy ▸ huc
    rw [← List.isChain_reverse] at hback
    rw [Walk.loop, List.reverse_append, List.reverse_singleton, List.singleton_append, Cycle.chain_coe_cons]
    rw [Walk.loop, List.reverse_cons, List.reverse_append, List.reverse_singleton] at hback
    exact hback

end References

namespace Walk

variable {g : References} {w w' : Walk}

/-- Every report is about a circuit through its entry, of the length that it gives, whose entities are all
marked. -/
def Reported (g : References) (w : Walk) : Prop :=
  ∀ r ∈ w.reports, ∃ ring, Circuit g.Refers ring ∧ r.entry ∈ ring ∧ ring.length = r.length ∧
    ∀ i ∈ ring, w.statusAt i = .cyclic

/-- A step reports only circuits. The case that reports one is the way back to an open entity. -/
lemma Step.reported (st : Step g w w') (coh : Coherent g w) (hall : Reported g w) : Reported g w' := by
  intro r hr
  have old (hr : r ∈ w.reports) : ∃ ring, Circuit g.Refers ring ∧ r.entry ∈ ring ∧
      ring.length = r.length ∧ ∀ i ∈ ring, w'.statusAt i = .cyclic := by
    obtain ⟨ring, hring, hentry, hlength, hmarked⟩ := hall r hr
    exact ⟨ring, hring, hentry, hlength, fun i hi => st.cyclic (hmarked i hi)⟩
  cases st with
  | root | enter | pass | leave => exact old hr
  | @back node child todo path hp hc =>
    obtain rfl | hr := List.mem_cons.mp hr
    · have hnodes : w.nodes = node :: path.map (·.node) := by simp [nodes, hp]
      have hchild : child ∈ w.nodes := (coh.open_iff child).mp hc
      refine ⟨((loop w.nodes child).reverse : Cycle Nat), ?_, ?_, ?_, ?_⟩
      · rw [hnodes] at hchild ⊢
        exact (coh.firstTrail hp).trail.circuit (coh.refers hp hc) hchild
      · simp [loop]
      · rw [Cycle.length_coe, List.length_reverse, segment_eq_loop hp]
      · intro i hi
        rw [Cycle.mem_coe_iff, List.mem_reverse] at hi
        exact coh.cyclic_of_back hp hc hi
    · exact old hr

/-- No entity is marked without a report. -/
def MarksReported (w : Walk) : Prop := ∀ i, w.statusAt i = .cyclic → w.reports ≠ []

/-- A step marks nothing without a report. -/
lemma Step.marksReported (st : Step g w w') (hall : MarksReported w) : MarksReported w' := by
  intro i hi
  cases st with
  | root | enter | pass => exact hall i hi
  | back => exact List.cons_ne_nil _ _
  | leave =>
    rw [statusAt_leave] at hi
    split at hi
    · cases hi
    · exact hall i hi

/-- So all reports are about circuits at the end. -/
lemma runAll_reported {status : Array Status} (hsize : status.size = g.all.size) :
    Reported g (runAll g status) := by
  have hboth : Coherent g (runAll g status) ∧ Reported g (runAll g status) := by
    apply runAll_induction (P := fun w => Coherent g w ∧ Reported g w)
    · exact ⟨.start hsize, fun r hr => absurd hr List.not_mem_nil⟩
    · rintro w w' ⟨coh, hall⟩ st
      exact ⟨st.coherent coh, st.reported coh hall⟩
  exact hboth.2

/-- So nothing is marked without a report at the end. -/
lemma runAll_marksReported {status : Array Status} (hstart : ∀ i, status.getD i .ok ≠ .cyclic) :
    MarksReported (runAll g status) :=
  runAll_induction (fun i hi => absurd hi (hstart i)) fun hall st => st.marksReported hall

end Walk

/-! ## What linking reports -/

namespace LinkedModel

/-- The references of the walk are those of the model. -/
lemma refers_references (m : LinkedModel) : m.references.Refers = m.RefersTo := by
  funext a b
  exact propext refers_references_iff

/-- The problem names an entity of a circuit of references and the number of its entities, which are all
marked as cyclic. -/
def TellsCycle (m : LinkedModel) (p : Problem) : Prop :=
  ∃ h e ring, m.get? h = some e ∧ Circuit m.RefersTo ring ∧ h ∈ ring ∧ (∀ i ∈ ring, m.statusOf i = .cyclic) ∧
    p.kind = .cyclicReference ∧ p.entity = some e.id ∧
    p.message = s!"reference cycle through #{e.id} ({ring.length} entities)"

end LinkedModel

namespace ExchangeFile

open LinkedModel Exchange

variable {file : ExchangeFile} {h : Handle}

/-- What is cyclic lies on a cycle. -/
lemma onCycle_of_cyclic (hcyclic : file.link.statusOf h = .cyclic) : file.link.OnCycle h := by
  rw [link_statusOf, Walk.runAll_cyclic_iff file.size_ownStatus file.ownStatus_ne_cyclic] at hcyclic
  rw [OnCycle, ← refers_references]
  exact hcyclic.onCycle

/-- If there is a cycle, some entity is marked. -/
lemma exists_cyclic_of_onCycle (hcycle : file.link.OnCycle h) : ∃ i, file.link.statusOf i = .cyclic := by
  by_contra hnone
  have hlt : h < file.link.references.all.size := by
    obtain ⟨b, ⟨e, -, he, -⟩, -⟩ := TransGen.head'_iff.mp hcycle
    rw [size_all_references]
    exact lt_size_of_get? he
  have hends := Walk.runAll_chainsEnd file.size_ownStatus file.ownStatus_ne_cyclic hlt
  refine not_transGen_self hends (transGen_swap.mpr (TransGen.mono ?_ h h hcycle))
  intro a b hab
  refine ⟨refers_references_iff.mpr hab, fun hclosed => hnone ⟨a, ?_⟩⟩
  rw [link_statusOf]
  exact (Walk.runAll_cyclic_iff file.size_ownStatus file.ownStatus_ne_cyclic a).mpr hclosed

/-- The problem of a report tells of its cycle. -/
lemma tellsCycle_of_mem {report : CycleReport} (hreport : report ∈ file.cycleReports) :
    file.link.TellsCycle (cycleProblem file.link.entities report) := by
  obtain ⟨ring, hring, hentry, hlength, hmarked⟩ :=
    Walk.runAll_reported file.size_ownStatus report (List.mem_reverse.mp hreport)
  rw [refers_references] at hring
  obtain ⟨b, ⟨e, -, he, -⟩, -⟩ := TransGen.head'_iff.mp (onCycle_of_cyclic (hmarked _ hentry))
  refine ⟨report.entry, e, ring, he, hring, hentry, hmarked, rfl, ?_, ?_⟩
  · rw [LinkedModel.get?] at he
    simp only [cycleProblem, he, Option.map_some, Option.getD_some]
  · rw [LinkedModel.get?] at he
    simp only [cycleProblem, he, Option.map_some, Option.getD_some, hlength]
    rfl

/-- There are reports exactly if there is a cycle. -/
lemma cycleReports_eq_nil_iff : file.cycleReports = [] ↔ ∀ h, ¬ file.link.OnCycle h := by
  constructor
  · intro hnone h hcycle
    obtain ⟨i, hi⟩ := exists_cyclic_of_onCycle hcycle
    exact Walk.runAll_marksReported file.ownStatus_ne_cyclic i hi (List.reverse_eq_nil_iff.mp hnone)
  · intro hnone
    rw [List.eq_nil_iff_forall_not_mem]
    intro report hreport
    obtain ⟨h, e, ring, -, -, hh, hmarked, -⟩ := tellsCycle_of_mem hreport
    exact hnone h (onCycle_of_cyclic (hmarked h hh))

/-- What linking says about the cycles of a file. -/
structure ReportsCycles (file : ExchangeFile) : Prop where
  /-- What is marked lies on a cycle. -/
  marked : ∀ h, file.link.statusOf h = .cyclic → file.link.OnCycle h
  /-- The problems that linking adds are about missing entities, and then each about a cycle. -/
  reported : ∃ missing cycles, file.link.log = file.log.pushAll (missing ++ cycles) ∧
    (∀ p ∈ missing, p.kind = .unresolvedReference) ∧ (∀ p ∈ cycles, file.link.TellsCycle p) ∧
    cycles.length = file.cycleReports.length ∧ (cycles = [] ↔ ∀ h, ¬ file.link.OnCycle h)
  /-- No problem of this kind is counted exactly if there is no cycle. -/
  unreported : file.cycleReports.length < UInt64.size →
    (file.link.log.count .cyclicReference = file.log.count .cyclicReference ↔ ∀ h, ¬ file.link.OnCycle h)

/-- Every report of a cycle is right, and some cycle is reported if there is any. -/
theorem link_reportsCycles (file : ExchangeFile) : file.ReportsCycles where
  marked _ := onCycle_of_cyclic
  reported := by
    refine ⟨file.danglingProblems, file.cycleReports.map (cycleProblem file.link.entities), file.log_link,
      fun p => kind_of_mem_danglingProblems, ?_, List.length_map _, ?_⟩
    · intro p hp
      obtain ⟨report, hreport, rfl⟩ := List.mem_map.mp hp
      exact tellsCycle_of_mem hreport
    · rw [List.map_eq_nil_iff, cycleReports_eq_nil_iff]
  unreported := by
    intro hfits
    have hcount : file.link.log.count .cyclicReference =
        file.log.count .cyclicReference + .ofNat file.cycleReports.length := by
      rw [count_link]
      simp
    rw [hcount, ← cycleReports_eq_nil_iff, ← List.length_eq_zero_iff]
    constructor
    · intro heq
      have hnat := congrArg UInt64.toNat (UInt64.add_eq_left.mp heq)
      rwa [UInt64.toNat_ofNat_of_lt' hfits] at hnat
    · intro hzero
      rw [hzero]
      exact UInt64.add_zero _

end ExchangeFile

end BuildingModel
