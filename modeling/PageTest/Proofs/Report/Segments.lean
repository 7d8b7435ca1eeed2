import PageTest.Proofs.Report.Tally

/-! The subtests of a report are the tests that were started. What a run pass writes for one test is
counted for one subtest, as long as the body does not take the words with which the test is left. -/

namespace PageTest

namespace Ran

/-- The text of what a body raised. -/
def errorText (r : Ran) : List String :=
  match r.ending with
  | some (.fault f) => [f.cause.summary]
  | some (.panic q) => [q.text]
  | _ => []

/-- What a report says of a test, told by what its body did. -/
def subtest (r : Ran) : Subtest where
  name := r.test.name
  passed := countKind .pass r.said
  failed := countKind .fail r.said + r.errorText.length
  failures := failMessages r.said ++ r.errorText
  completed := r.completed

/-- A body that opens no subtest, and does not remark that its own test is left. -/
structure Modest (r : Ran) : Prop where
  opens : ∀ e ∈ r.said, e.kind ≠ .subtest
  leaving : ⟨.info, Subtest.leaving r.test.name⟩ ∉ r.said

theorem entering_ne_leaving (name : String) : Subtest.entering name ≠ Subtest.leaving name := by
  intro h
  have := congrArg String.toList h
  simp [Subtest.entering, Subtest.leaving] at this

theorem closing_counts (r : Ran) : countKind .pass r.closing = 0 ∧
    countKind .fail r.closing = r.errorText.length ∧
    failMessages r.closing = r.errorText ∧
      (⟨.info, Subtest.leaving r.test.name⟩ ∈ r.closing ↔ r.completed = true) ∧
    ∀ e ∈ r.closing, e.kind ≠ .subtest := by
  obtain ⟨t, said, ending⟩ := r
  cases ending with
  | none => simp [closing, errorText, completed, failMessages]
  | some o =>
    cases o with
    | value v => simp [closing, errorText, completed, failMessages]
    | fault f => simp [closing, errorText, completed, failMessages, failed, Frame.Failure.ofFault]
    | panic q => simp [closing, errorText, completed, failMessages, failed, Frame.Failure.ofPanic]

theorem foldl_log {r : Ran} (h : r.Modest) (p : String) (t : Tally) :
    (r.log.foldl (Tally.count p) t).subtests = r.subtest :: t.subtests := by
  obtain ⟨h1, h2, h3, h4, h5⟩ := r.closing_counts
  set tail : List LogEntry :=
    ⟨.info, Subtest.entering r.test.name⟩ :: (r.said ++ r.closing) with htail
  have hopen : ∀ e ∈ tail, e.kind ≠ .subtest := by
    intro e he
    simp only [htail, List.mem_cons, List.mem_append] at he
    rcases he with rfl | he | he
    · simp
    · exact h.opens e he
    · exact h5 e he
  have hstart : (t.count p ⟨.subtest, r.test.name⟩).subtests = Subtest.start r.test.name :: t.subtests := rfl
  rw [show r.log = ⟨.subtest, r.test.name⟩ :: tail from rfl, List.foldl_cons,
    Tally.foldl_open hopen hstart]
  obtain ⟨k1, k2, k3, k4⟩ := Subtest.foldl_count tail (.start r.test.name)
  have k5 := Subtest.foldl_completed tail (.start r.test.name)
  congr 1
  have hne := entering_ne_leaving r.test.name
  have hc : (tail.foldl Subtest.count (.start r.test.name)).completed = r.completed := by
    rw [Bool.eq_iff_iff, k5]
    simp only [Subtest.start, htail, List.mem_cons, List.mem_append, LogEntry.mk.injEq, true_and,
      h4, h.leaving,
      Ne.symm hne, false_or, Bool.false_eq_true]
  have hpass : countKind .pass tail = countKind .pass r.said := by simp [htail, h1]
  have hfail : countKind .fail tail = countKind .fail r.said + r.errorText.length := by
    simp [htail, h2]
  have htexts : failMessages tail = failMessages r.said ++ r.errorText := by
    rw [← h3, ← failMessages_append]
    rfl
  rw [hpass] at k2
  rw [hfail] at k3
  rw [htexts] at k4
  generalize tail.foldl Subtest.count (.start r.test.name) = sub at k1 k2 k3 k4 hc
  cases sub
  simp only [Subtest.start, Nat.zero_add, List.nil_append] at k1 k2 k3 k4 hc
  subst k1 k2 k3 k4 hc
  rfl

theorem foldl_logs {rs : List Ran} (h : ∀ r ∈ rs, r.Modest) (p : String) (t : Tally) :
    ((rs.flatMap log).foldl (Tally.count p) t).subtests = (rs.map subtest).reverse ++ t.subtests := by
  induction rs generalizing t with
  | nil => rfl
  | cons r rs ih =>
    rw [List.flatMap_cons, List.foldl_append, ih fun r' hr' => h r' (by simp [hr']),
      foldl_log (h r (by simp))]
    simp

/-- The results of some tests, added up. -/
theorem count_logs (rs : List Ran) :
    countKind .pass (rs.flatMap log) = (rs.map fun r => r.subtest.passed).sum ∧
      countKind .fail (rs.flatMap log) = (rs.map fun r => r.subtest.failed).sum := by
  induction rs with
  | nil => exact ⟨rfl, rfl⟩
  | cons r rs ih =>
    obtain ⟨h1, h2, -⟩ := r.closing_counts
    rw [List.flatMap_cons, countKind_append, countKind_append, ih.1, ih.2, List.map_cons,
      List.map_cons, List.sum_cons,
      List.sum_cons]
    simp [log, subtest, h1, h2]

end Ran

end PageTest
