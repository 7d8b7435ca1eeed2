import PageTest.Proofs.Load.Story

/-! What a report counts. The results are counted over all entries; a subtest gets those between its
own marker and the next one. -/

namespace PageTest

/-- The entry that a driver takes for the end of the load. -/
def endMarker (p : String) : LogEntry := ⟨.testEnd, p⟩

/-- How many entries of a kind there are. -/
def countKind (kind : LogKind) (es : List LogEntry) : Nat := es.countP (·.kind == kind)

/-- The messages of the FAIL entries. -/
def failMessages (es : List LogEntry) : List String := (es.filter (·.kind == .fail)).map (·.message)

@[simp] theorem countKind_nil (kind : LogKind) : countKind kind [] = 0 := rfl

@[simp] theorem countKind_append (kind : LogKind) (es es' : List LogEntry) :
    countKind kind (es ++ es') = countKind kind es + countKind kind es' := List.countP_append

@[simp] theorem countKind_cons (kind : LogKind) (e : LogEntry) (es : List LogEntry) :
    countKind kind (e :: es) = countKind kind es + if e.kind = kind then 1 else 0 := by
  simp [countKind, List.countP_cons]

theorem countKind_eq_zero {kind : LogKind} {es : List LogEntry} :
    countKind kind es = 0 ↔ ∀ e ∈ es, e.kind ≠ kind := by
  simp [countKind]

@[simp] theorem failMessages_append (es es' : List LogEntry) :
    failMessages (es ++ es') = failMessages es ++ failMessages es' := by simp [failMessages]

namespace Tally

variable {p : String}

theorem count_passed (t : Tally) (e : LogEntry) :
    (t.count p e).passed = t.passed + if e.kind = .pass then 1 else 0 := by
  unfold count
  cases e.kind with
  | testEnd => dsimp only; split_ifs <;> simp_all
  | _ => simp

theorem count_failed (t : Tally) (e : LogEntry) :
    (t.count p e).failed = t.failed + if e.kind = .fail then 1 else 0 := by
  unfold count
  cases e.kind with
  | testEnd => dsimp only; split_ifs <;> simp_all
  | _ => simp

theorem count_ended (t : Tally) (e : LogEntry) : (t.count p e).ended = true ↔ t.ended = true ∨
    e = endMarker p := by
  obtain ⟨kind, msg⟩ := e
  cases kind with
  | testEnd =>
    simp only [count, endMarker, LogEntry.mk.injEq, true_and]
    split_ifs with h <;> simp [h]
  | _ => simp [count, endMarker]

theorem foldl_passed (es : List LogEntry) (t : Tally) :
    (es.foldl (count p) t).passed = t.passed + countKind .pass es := by
  induction es generalizing t with
  | nil => rfl
  | cons e es ih => rw [List.foldl_cons, ih, count_passed, countKind_cons]; omega

theorem foldl_failed (es : List LogEntry) (t : Tally) :
    (es.foldl (count p) t).failed = t.failed + countKind .fail es := by
  induction es generalizing t with
  | nil => rfl
  | cons e es ih => rw [List.foldl_cons, ih, count_failed, countKind_cons]; omega

theorem foldl_ended (es : List LogEntry) (t : Tally) :
    (es.foldl (count p) t).ended = true ↔ t.ended = true ∨ endMarker p ∈ es := by
  induction es generalizing t with
  | nil => simp
  | cons e es ih =>
    rw [List.foldl_cons, ih, count_ended, List.mem_cons, or_assoc, eq_comm (a := e)]

/-- Entries that open no subtest are counted for the one that is open. -/
theorem foldl_open {es : List LogEntry} (h : ∀ e ∈ es, e.kind ≠ .subtest) {t : Tally} {s : Subtest}
    {ss : List Subtest} (ht : t.subtests = s :: ss) :
    (es.foldl (count p) t).subtests = es.foldl Subtest.count s :: ss := by
  induction es generalizing t s with
  | nil => simpa using ht
  | cons e es ih =>
    rw [List.foldl_cons, List.foldl_cons]
    refine ih (fun e' he' => h e' (by simp [he'])) ?_
    have hk := h e (by simp)
    unfold count Subtest.count
    cases hkind : e.kind with
    | subtest => exact absurd hkind hk
    | testEnd => dsimp only; split_ifs <;> exact ht
    | _ => simp [ht, countInOpen, Subtest.count, hkind]

theorem foldl_none {es : List LogEntry} (h : ∀ e ∈ es, e.kind ≠ .subtest) {t : Tally}
    (ht : t.subtests = []) : (es.foldl (count p) t).subtests = [] := by
  induction es generalizing t with
  | nil => simpa using ht
  | cons e es ih =>
    rw [List.foldl_cons]
    refine ih (fun e' he' => h e' (by simp [he'])) ?_
    have hk := h e (by simp)
    unfold count
    cases hkind : e.kind with
    | subtest => exact absurd hkind hk
    | testEnd => dsimp only; split_ifs <;> exact ht
    | _ => simp [ht, countInOpen]

end Tally

namespace Subtest

/-- What is counted for one subtest. -/
theorem foldl_count (es : List LogEntry) (s : Subtest) :
    (es.foldl count s).name = s.name ∧ (es.foldl count s).passed = s.passed + countKind .pass es ∧
      (es.foldl count s).failed = s.failed + countKind .fail es ∧
      (es.foldl count s).failures = s.failures ++ failMessages es := by
  induction es generalizing s with
  | nil => simp [failMessages]
  | cons e es ih =>
    have hone : (s.count e).name = s.name ∧
      (s.count e).passed = s.passed + (if e.kind = .pass then 1 else 0) ∧
        (s.count e).failed = s.failed + (if e.kind = .fail then 1 else 0) ∧
        (s.count e).failures = s.failures ++ failMessages [e] := by
      obtain ⟨kind, msg⟩ := e
      cases kind with
      | info => by_cases h : msg = leaving s.name <;> simp [count, failMessages, h]
      | _ => simp [count, failMessages]
    obtain ⟨h1, h2, h3, h4⟩ := ih (s.count e)
    rw [List.foldl_cons, h1, h2, h3, h4, hone.1, hone.2.1, hone.2.2.1, hone.2.2.2, countKind_cons,
      countKind_cons]
    refine ⟨rfl, by omega, by omega, ?_⟩
    rw [List.append_assoc, ← failMessages_append]
    rfl

theorem foldl_completed (es : List LogEntry) (s : Subtest) :
    (es.foldl count s).completed = true ↔ s.completed = true ∨ ⟨.info, leaving s.name⟩ ∈ es := by
  induction es generalizing s with
  | nil => simp
  | cons e es ih =>
    have hname : (s.count e).name = s.name := (foldl_count [e] s).1
    have hone : (s.count e).completed = true ↔ s.completed = true ∨
      ⟨.info, leaving s.name⟩ = e := by
      obtain ⟨kind, msg⟩ := e
      cases kind with
      | info =>
        by_cases h : msg = leaving s.name
        · simp [count, h]
        · simp [count, h, Ne.symm h]
      | _ => simp [count]
    rw [List.foldl_cons, ih, hname, hone, List.mem_cons, or_assoc]

end Subtest

namespace RunReport

variable {p : String} {logs : List LogEntry} {timedOut : Bool} {at_ : Timestamp} {ms : Nat}

@[simp] theorem ofLogs_passed : (ofLogs p logs timedOut at_ ms).passed = countKind .pass logs := by
  simp [ofLogs, Tally.ofLogs, Tally.foldl_passed, Tally.zero]

@[simp] theorem ofLogs_failed : (ofLogs p logs timedOut at_ ms).failed = countKind .fail logs := by
  simp [ofLogs, Tally.ofLogs, Tally.foldl_failed, Tally.zero]

/-- The status of a report, told by its entries. -/
theorem ofLogs_status : (ofLogs p logs timedOut at_ ms).status =
    if endMarker p ∈ logs then (if countKind .fail logs = 0 then .passed else .failed)
    else if timedOut then .timedOut else .loadFailed := by
  have hf : (Tally.ofLogs p logs).failed = countKind .fail logs := by
    simp [Tally.ofLogs, Tally.foldl_failed, Tally.zero]
  have he : (Tally.ofLogs p logs).ended = true ↔ endMarker p ∈ logs := by
    simp [Tally.ofLogs, Tally.foldl_ended, Tally.zero]
  simp only [ofLogs, Tally.status, hf, he]

theorem ofLogs_status_passed :
    (ofLogs p logs timedOut at_ ms).status = .passed ↔ endMarker p ∈ logs ∧
    countKind .fail logs = 0 := by
  rw [ofLogs_status]
  split_ifs <;> simp_all

end RunReport

end PageTest
