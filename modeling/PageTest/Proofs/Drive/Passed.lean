import PageTest.Proofs.Drive.Return

/-! What a passed report tells of the load. The driver stops draining when it sees the end marker;
an entry that looks like it, left over from before or written by a body, hides what the load writes
afterwards. -/

namespace PageTest

namespace Ran

variable {r : Ran}

/-- A test that raised left a FAIL entry. -/
theorem fail_of_raised (h : r.raised = true) : ∃ e ∈ r.log, e.kind = .fail := by
  obtain ⟨t, said, ending⟩ := r
  cases ending with
  | none => simp [raised] at h
  | some o =>
    cases o with
    | value v => simp [raised] at h
    | fault f => exact ⟨⟨.fail, (Frame.Failure.ofFault f).message⟩, by simp [log, closing, failed],
        rfl⟩
    | panic q => exact ⟨⟨.fail, (Frame.Failure.ofPanic t.name q).message⟩, by simp [log, closing, failed], rfl⟩

end Ran

namespace Over

variable {su : Setup} {c : Code} {p : String} {s : Story} {o : Outcome}

/-- A load that was not stopped by a panic of the loader and wrote no FAIL entry has run all its
tests. -/
theorem completed (h : Over su c p s o) (ho : World.reportOf o = .done)
    (hf : ∀ e ∈ s.log, e.kind ≠ .fail) : s.verdict = some .completed := by
  cases h with
  | rejected => exact absurd rfl (hf ⟨.fail, Frame.unsupportedPath p⟩ (by simp [Story.log]))
  | unknown => exact absurd rfl (hf ⟨.fail, Frame.noSuchScript p⟩ (by simp [Story.log]))
  | @unregistered s k o reason => exact absurd rfl (hf ⟨.fail, reason⟩ (by simp [Story.log]))
  | died => simp [World.reportOf] at ho
  | refused => exact absurd rfl (hf ⟨.fail, RegistryError.alreadyRunning.message⟩ (by simp [Story.log]))
  | @ended s k st hop hl hc =>
    cases hc with
    | completed => rfl
    | @aborted r before queue hran _ _ hraised =>
      obtain ⟨e, he, hk⟩ := Ran.fail_of_raised hraised
      have : e ∈ Story.log { s with verdict := some .aborted, closing := [⟨.testEnd, p⟩] } := by
        simp only [Story.log, hran, List.mem_append, List.mem_flatMap]
        exact .inl (.inr ⟨r, by simp, he⟩)
      exact absurd hk (hf e this)

end Over

variable {su : Setup} {c : Code} {D : Nat} {below : List Frame} {p : String} {w w₀ w' : World}
variable {acts : List Act}

/-- What a passed report tells of a load that a driver watched. -/
theorem Returned.passed {L t₀ : Nat} {stale : List LogEntry} {a : Activity} {r : RunReport}
    (hst : Stage su c p D L acts w' a) (h : Returned su p L stale t₀ acts w' a (.value (.report r)))
    (hp : r.status = .passed) :
    a.ended = some .done ∧
      (((story L acts).verdict = some .completed ∧ ∀ e ∈ said L acts, e.kind ≠ .fail) ↔
        ∀ e ∈ w'.log.waiting, e.kind ≠ .fail) ∧
      (endMarker p ∉ stale → endMarker p ∉ (story L acts).registered →
        (∀ r ∈ (story L acts).ran, endMarker p ∉ r.said) →
        (story L acts).verdict = some .completed ∧ ∀ e ∈ said L acts, e.kind ≠ .fail) := by
  have completed (he : a.ended = some .done) (hf : ∀ e ∈ said L acts, e.kind ≠ .fail) :
      (story L acts).verdict = some .completed ∧ ∀ e ∈ said L acts, e.kind ≠ .fail := by
    obtain ⟨o, ho, hd⟩ := hst.task.over he
    exact ⟨ho.completed hd (by rwa [hst.told]), hf⟩
  cases h with
  | joined he hw =>
    have hf := countKind_eq_zero.1 (RunReport.ofLogs_status_passed.1 hp).2
    have hsaid : ∀ e ∈ said L acts, e.kind ≠ .fail := fun e hm => hf e (by simp [hm])
    exact ⟨he, ⟨fun _ => by simp [hw], fun _ => completed he hsaid⟩,
      fun _ _ _ => completed he hsaid⟩
  | stopped _ _ hm => exact absurd (RunReport.ofLogs_status_passed.1 hp).1 hm
  | settled logs he hlogs hm hpre =>
    have hf := countKind_eq_zero.1 (RunReport.ofLogs_status_passed.1 hp).2
    obtain ⟨own, rfl⟩ := hpre
    have hown : own ++ w'.log.waiting = said L acts := by
      rw [List.append_assoc] at hlogs
      exact List.append_cancel_left hlogs
    have hiff : (∀ e ∈ said L acts, e.kind ≠ .fail) ↔ ∀ e ∈ w'.log.waiting, e.kind ≠ .fail := by
      rw [← hown]
      refine ⟨fun h e he => h e (by simp [he]), fun h e he => ?_⟩
      rcases List.mem_append.1 he with h1 | h1
      · exact hf e (by simp [h1])
      · exact h e h1
    refine ⟨he, ⟨fun h => hiff.1 h.2, fun h => completed he (hiff.2 h)⟩, fun hstale hreg hran => ?_⟩
    obtain ⟨o, ho, -⟩ := hst.task.over he
    obtain ⟨init, hi, hlog⟩ := ho.marker_last hreg hran
    rw [hst.told, ← hown] at hlog
    have hnil := rest_nil_of_last hi ((List.mem_append.1 hm).resolve_left hstale) hlog
    exact completed he (hiff.2 (by simp [hnil]))

/-- A passed report means that the load ran to its end. It means that the run pass was completed and
that nothing failed just when no FAIL entry was left in the log; that is so whenever no end marker
was left over from before and no body wrote one. -/
theorem passed_iff_no_fail_left {r : RunReport}
    (hc : ∀ sc ∈ su.catalog, sc.obeys (.writing fun _ => true) = true)
    (hD : D < w.tasks.length) (ht : w.Tabled)
    (hb : Bystanders (.writing fun _ => true) (· = D) w.core)
    (hl : w.launch su D below p = .ok w₀) (hr : Run su (fun _ => False) w₀ acts w')
    (hin : ∀ act ∈ acts, act.before.Driving D below) (hback : w'.Back D below (.value (.report r)))
    (hp : r.status = .passed) :
    (∃ a, w'.core.tasks[w.tasks.length]? = some a ∧ a.ended = some .done) ∧
      (((story w.tasks.length acts).verdict = some .completed ∧ ∀ e ∈ said w.tasks.length acts, e.kind ≠ .fail) ↔
        ∀ e ∈ w'.log.waiting, e.kind ≠ .fail) ∧
      (endMarker p ∉ w.log.waiting → endMarker p ∉ (story w.tasks.length acts).registered →
        (∀ r ∈ (story w.tasks.length acts).ran, endMarker p ∉ r.said) →
        (story w.tasks.length acts).verdict = some .completed ∧
          ∀ e ∈ said w.tasks.length acts, e.kind ≠ .fail) := by
  obtain ⟨-, hcore⟩ := World.core_launch hl
  obtain ⟨a, hcame⟩ := (Watch.of_launch hcore hD hb ht).back (Code.mute_writing _) hc hr hin hback
  rw [List.nil_append] at hcame
  obtain ⟨he, hrest⟩ := hcame.returned.passed hcame.stage hp
  exact ⟨⟨a, hcame.stage.load, he⟩, hrest⟩

def Outcome.isPassed : Outcome → Bool
  | .value (.report r) => r.status == .passed
  | _ => false

/-- An end marker that nobody has read. -/
def Demo.leftover : World := { world [] [] with log := ⟨[], [endMarker failingPath]⟩ }

/-- The marker that was left over passes for the one of the load, which fails. -/
theorem passed_iff_no_fail_left_demo : let acts :=
    (Demo.launched Demo.leftover Demo.failingPath).actsOf Demo.setup 26
    (∃ r, ((Demo.launched Demo.leftover Demo.failingPath).afterSteps Demo.setup 26).Back 0 [] (.value (.report r)) ∧
      r.status = .passed) ∧ ¬ ((story 1 acts).verdict = some .completed ∧ ∀ e ∈ said 1 acts, e.kind ≠ .fail) := by
  intro acts
  obtain ⟨o, hback, hpassed⟩ := World.exists_back (D := 0) (q := Outcome.isPassed)
    (w := (Demo.launched Demo.leftover Demo.failingPath).afterSteps Demo.setup 26)
    (by decide +kernel)
  obtain ⟨r, rfl, hr⟩ : ∃ r, o = .value (.report r) ∧ r.status = .passed := by
    unfold Outcome.isPassed at hpassed
    split at hpassed
    · exact ⟨_, rfl, beq_iff_eq.1 hpassed⟩
    · simp at hpassed
  refine ⟨⟨r, hback, hr⟩, fun h => ?_⟩
  have hlaunch : Demo.leftover.launch Demo.setup 0 [] Demo.failingPath =
      .ok (Demo.launched Demo.leftover Demo.failingPath) := rfl
  obtain ⟨-, hiff, -⟩ := passed_iff_no_fail_left (w := Demo.leftover) (by decide +kernel) (by decide) (Demo.tabled _ _)
    (Demo.alone _) hlaunch (World.run_afterSteps 26 _) (by decide +kernel) hback hr
  exact absurd (hiff.1 h) (by decide +kernel)

end PageTest
