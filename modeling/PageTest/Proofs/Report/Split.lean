import Mathlib.Data.List.TakeWhile
import PageTest.Proofs.Report.Tally

/-! A report told by how its log falls apart. The log is cut at every SUBTEST entry, and each subtest is worked
out from its own part alone; what comes before the first of them counts for the totals and for no subtest. -/

namespace PageTest

/-- A SUBTEST entry, with what follows it up to the next one. -/
structure Segment where
  name : String
  entries : List LogEntry
  deriving DecidableEq, Repr

namespace Segment

/-- The part of the log that the segment is. -/
def span (s : Segment) : List LogEntry := ⟨.subtest, s.name⟩ :: s.entries

def subtest (s : Segment) : Subtest where
  name := s.name
  passed := countKind .pass s.entries
  failed := countKind .fail s.entries
  failures := failMessages s.entries
  completed := decide (⟨.info, Subtest.leaving s.name⟩ ∈ s.entries)

/-- The entries up to the first that opens a subtest. -/
def closed (es : List LogEntry) : List LogEntry := es.takeWhile (·.kind != .subtest)

/-- The segments of a log, in order. -/
def ofLogs : List LogEntry → List Segment
  | [] => []
  | e :: es => if e.kind = .subtest then ⟨e.message, closed es⟩ :: ofLogs es else ofLogs es

variable {p : String} {es : List LogEntry} {s : Segment} {ss : List Segment}

theorem closed_kind : ∀ e ∈ closed es, e.kind ≠ .subtest := by
  intro e he
  simpa using List.mem_takeWhile_imp he

theorem ofLogs_kind : ∀ s ∈ ofLogs es, ∀ e ∈ s.entries, e.kind ≠ .subtest := by
  induction es with
  | nil => nofun
  | cons e es ih =>
    rw [ofLogs]
    split
    · exact List.forall_mem_cons.2 ⟨closed_kind, ih⟩
    · exact ih

/-- Nothing is lost between the segments. -/
theorem closed_append_spans (es : List LogEntry) : closed es ++ (ofLogs es).flatMap span = es := by
  induction es with
  | nil => rfl
  | cons e es ih =>
    obtain ⟨kind, message⟩ := e
    by_cases opens : kind = .subtest
    · subst opens
      rw [ofLogs, if_pos rfl, List.flatMap_cons, span, List.cons_append, ih]
      rfl
    · have stays : closed (⟨kind, message⟩ :: es) = ⟨kind, message⟩ :: closed es :=
        List.takeWhile_cons_of_pos (bne_iff_ne.2 opens)
      rw [ofLogs, if_neg opens, stays, List.cons_append, ih]

theorem closed_append {before : List LogEntry} (h : ∀ e ∈ before, e.kind ≠ .subtest) :
    closed (before ++ ss.flatMap span) = before := by
  rw [closed, List.takeWhile_append_of_pos fun e he => bne_iff_ne.2 (h e he)]
  cases ss with
  | nil => exact List.append_nil _
  | cons s ss => exact List.append_nil _

theorem ofLogs_append {before : List LogEntry} (h : ∀ e ∈ before, e.kind ≠ .subtest) :
    ofLogs (before ++ es) = ofLogs es := by
  induction before with
  | nil => rfl
  | cons e before ih =>
    obtain ⟨other, h⟩ := List.forall_mem_cons.1 h
    rw [List.cons_append, ofLogs, if_neg other, ih h]

theorem ofLogs_spans (h : ∀ s ∈ ss, ∀ e ∈ s.entries, e.kind ≠ .subtest) : ofLogs (ss.flatMap span) = ss := by
  induction ss with
  | nil => rfl
  | cons s ss ih =>
    obtain ⟨own, others⟩ := List.forall_mem_cons.1 h
    rw [List.flatMap_cons, span, List.cons_append, ofLogs, if_pos rfl, closed_append own, ofLogs_append own,
      ih others]

/-- There is one way only to cut a log at its SUBTEST entries. -/
theorem split_unique {before : List LogEntry} (first : ∀ e ∈ before, e.kind ≠ .subtest)
    (later : ∀ s ∈ ss, ∀ e ∈ s.entries, e.kind ≠ .subtest) (cut : es = before ++ ss.flatMap span) :
    before = closed es ∧ ss = ofLogs es := by
  rw [cut, closed_append first, ofLogs_append first, ofLogs_spans later]
  exact ⟨rfl, rfl⟩

/-- A segment adds its own subtest to what is counted. -/
theorem foldl_span (h : ∀ e ∈ s.entries, e.kind ≠ .subtest) (t : Tally) :
    (s.span.foldl (Tally.count p) t).subtests = s.subtest :: t.subtests := by
  have opened : (t.count p ⟨.subtest, s.name⟩).subtests = Subtest.start s.name :: t.subtests := rfl
  rw [span, List.foldl_cons, Tally.foldl_open h opened]
  congr 1
  have counted := Subtest.foldl_count s.entries (.start s.name)
  have completed := Subtest.foldl_completed s.entries (.start s.name)
  generalize s.entries.foldl Subtest.count (.start s.name) = r at counted completed ⊢
  obtain ⟨name, passed, failed, failures, done⟩ := r
  simp only [Subtest.start, Nat.zero_add, List.nil_append, Bool.false_eq_true, false_or] at counted completed
  obtain ⟨rfl, rfl, rfl, rfl⟩ := counted
  rw [subtest, ← Bool.decide_congr completed, Bool.decide_eq_true]

theorem foldl_spans (h : ∀ s ∈ ss, ∀ e ∈ s.entries, e.kind ≠ .subtest) (t : Tally) :
    ((ss.flatMap span).foldl (Tally.count p) t).subtests = (ss.map subtest).reverse ++ t.subtests := by
  induction ss generalizing t with
  | nil => rfl
  | cons s ss ih =>
    obtain ⟨own, others⟩ := List.forall_mem_cons.1 h
    rw [List.flatMap_cons, List.foldl_append, ih others, foldl_span own, List.map_cons, List.reverse_cons,
      List.append_assoc, List.singleton_append]

theorem countKind_spans {kind : LogKind} (h : kind ≠ .subtest) (ss : List Segment) :
    countKind kind (ss.flatMap span) = (ss.map fun s => countKind kind s.entries).sum := by
  induction ss with
  | nil => rfl
  | cons s ss ih =>
    rw [List.flatMap_cons, countKind_append, ih, List.map_cons, List.sum_cons, span, countKind_cons,
      if_neg h.symm, Nat.add_zero]

end Segment

namespace RunReport

open Segment

variable (p : String) (logs : List LogEntry) (timedOut : Bool) (at_ : Timestamp) (ms : Nat)

theorem ofLogs_subtests : (ofLogs p logs timedOut at_ ms).subtests = (Segment.ofLogs logs).map subtest := by
  have counted : (Tally.ofLogs p logs).subtests = ((Segment.ofLogs logs).map subtest).reverse := by
    have prelude : ((closed logs).foldl (Tally.count p) .zero).subtests = [] := Tally.foldl_none closed_kind rfl
    conv_lhs => rw [← closed_append_spans logs]
    rw [Tally.ofLogs, List.foldl_append, foldl_spans ofLogs_kind, prelude, List.append_nil]
  rw [ofLogs]
  dsimp only
  rw [counted, List.reverse_reverse]

theorem countKind_split {kind : LogKind} (h : kind ≠ .subtest) : countKind kind logs =
    countKind kind (closed logs) + ((Segment.ofLogs logs).map fun s => countKind kind s.entries).sum := by
  rw [← countKind_spans h, ← countKind_append, closed_append_spans]

/-- The first failure is the message of the first FAIL entry. -/
theorem firstFailure_ofLogs : (ofLogs p logs timedOut at_ ms).firstFailure = (failMessages logs).head? := by
  rw [firstFailure, failMessages, List.head?_map, List.head?_filter]
  rfl

theorem countKind_fail : countKind .fail logs = (failMessages logs).length := by
  rw [failMessages, List.length_map, countKind, List.countP_eq_length_filter]

/-- A report is the split of its log. Whatever the entries are, every subtest is worked out from what stands
between its own marker and the next; the totals add what stands before the first marker; the log ended if the
end marker of the path is anywhere in it, and the first failure is the first FAIL entry. -/
theorem ofLogs_split :
    (logs = closed logs ++ (Segment.ofLogs logs).flatMap span ∧ (∀ e ∈ closed logs, e.kind ≠ .subtest) ∧
      ∀ s ∈ Segment.ofLogs logs, ∀ e ∈ s.entries, e.kind ≠ .subtest) ∧
    let r := ofLogs p logs timedOut at_ ms
    (r.path = p ∧ r.logs = logs ∧ r.passed = countKind .pass logs ∧ r.failed = countKind .fail logs) ∧
    r.subtests = (Segment.ofLogs logs).map subtest ∧
    (r.passed = countKind .pass (closed logs) + (r.subtests.map (·.passed)).sum ∧
      r.failed = countKind .fail (closed logs) + (r.subtests.map (·.failed)).sum) ∧
    ((r.status = .passed ↔ endMarker p ∈ logs ∧ r.failed = 0) ∧
      (r.status = .failed ↔ endMarker p ∈ logs ∧ 0 < r.failed) ∧
      (r.status = .timedOut ↔ endMarker p ∉ logs ∧ timedOut = true) ∧
      (r.status = .loadFailed ↔ endMarker p ∉ logs ∧ timedOut = false)) ∧
    (r.firstFailure = (failMessages logs).head? ∧ (r.firstFailure.isSome = true ↔ 0 < r.failed)) := by
  refine ⟨⟨(closed_append_spans logs).symm, closed_kind, ofLogs_kind⟩, ?_⟩
  intro r
  have subtests : r.subtests = (Segment.ofLogs logs).map subtest := ofLogs_subtests p logs timedOut at_ ms
  have passed : r.passed = countKind .pass logs := ofLogs_passed
  have failed : r.failed = countKind .fail logs := ofLogs_failed
  have status : r.status = if endMarker p ∈ logs then (if r.failed = 0 then .passed else .failed)
      else if timedOut then .timedOut else .loadFailed := by
    rw [failed]
    exact ofLogs_status
  refine ⟨⟨rfl, rfl, passed, failed⟩, subtests, ⟨?_, ?_⟩, ⟨?_, ?_, ?_, ?_⟩,
    firstFailure_ofLogs p logs timedOut at_ ms, ?_⟩
  · rw [passed, countKind_split logs (by decide), subtests, List.map_map]
    rfl
  · rw [failed, countKind_split logs (by decide), subtests, List.map_map]
    rfl
  · rw [status]
    split_ifs <;> simp_all
  · rw [status]
    split_ifs <;> simp_all [Nat.pos_iff_ne_zero]
  · rw [status]
    split_ifs <;> simp_all
  · rw [status]
    split_ifs <;> simp_all
  · rw [firstFailure_ofLogs, failed, countKind_fail, List.isSome_head?, List.length_pos_iff]

end RunReport

end PageTest
