import PageTest.CommandLine.Program
import PageTest.Proofs.Forward.Drives
import PageTest.Proofs.Forward.Scripts

/-! What a suite of loads on the demo page comes to, whatever the paths are. The page is carried from one load to
the next, and a search that has been made before leaves a page on which the script for it fails. -/

namespace PageTest

theorem Setup.overflows_mono {su : Setup} {now later secs : Nat} (hl : su.overflows later secs = false)
    (h : now ≤ later) : su.overflows now secs = false := by
  simp only [overflows, decide_eq_false_iff_not] at hl ⊢
  omega

theorem SuiteReport.success_ofResults (rs : List RunReport) (ms : Nat) :
    (SuiteReport.ofResults rs ms).success = true ↔ ∀ r ∈ rs, r.status = .passed := by
  have hle : rs.countP (·.success) ≤ rs.length := List.countP_le_length
  have hall : rs.countP (·.success) = rs.length ↔ ∀ r ∈ rs, r.status = .passed := by
    simp [List.countP_eq_length, RunReport.success]
  rw [← hall]
  simp only [success, ofResults, beq_iff_eq]
  omega

namespace Demo

open World

/-- What becomes of paths that are loaded one after another. -/
def verdicts (used : Bool) : List String → List (String × RunStatus)
  | [] => []
  | p :: ps => (p, statusOf used p) :: verdicts (used || p == searchPath) ps

variable {su : Setup} {w : World} {d : Desk} {used : Bool} {p : String} {ps : List String}
variable {k : Nat}

/-! Verdicts -/

theorem verdicts_paths (used : Bool) (ps : List String) : (verdicts used ps).map (·.1) = ps := by
  induction ps generalizing used with
  | nil => rfl
  | cons p ps ih => rw [verdicts, List.map_cons, ih]

/-- The verdict depends on whether there was a search before. -/
theorem getElem?_verdicts (used : Bool) (ps : List String) (i : Nat) : (verdicts used ps)[i]? =
    ps[i]?.map fun p => (p, statusOf (used || (ps.take i).contains searchPath) p) := by
  induction ps generalizing used i with
  | nil => rfl
  | cons p ps ih =>
    cases i with
    | zero => simp [verdicts]
    | succ i =>
      rw [verdicts, List.getElem?_cons_succ, ih, List.getElem?_cons_succ, List.take_succ_cons, List.contains_cons,
        Bool.or_assoc, BEq.comm (a := p)]

theorem paths_ne : valuesPath ≠ searchPath ∧ valuesPath ≠ failingPath ∧ searchPath ≠ failingPath := by decide

theorem statusOf_eq_passed (used : Bool) (p : String) :
    statusOf used p = .passed ↔ p = valuesPath ∨ p = searchPath ∧ used = false := by
  obtain ⟨hvs, -, -⟩ := paths_ne
  unfold statusOf
  split_ifs with hv hs hu hf <;> simp_all

theorem statusOf_eq_failed (used : Bool) (p : String) :
    statusOf used p = .failed ↔ p = failingPath ∨ p = searchPath ∧ used = true := by
  obtain ⟨hvs, hvf, hsf⟩ := paths_ne
  unfold statusOf
  split_ifs with hv hs hu hf <;> simp_all

theorem statusOf_eq_loadFailed (used : Bool) (p : String) :
    statusOf used p = .loadFailed ↔ p ≠ valuesPath ∧ p ≠ searchPath ∧ p ≠ failingPath := by
  unfold statusOf
  split_ifs with hv hs hu hf <;> simp_all

/-- All is well if nothing but the two good scripts is asked for, and there is one search at most. -/
theorem verdicts_passed (used : Bool) (ps : List String) : (∀ v ∈ verdicts used ps, v.2 = .passed) ↔
    (∀ p ∈ ps, p = valuesPath ∨ p = searchPath) ∧ ps.count searchPath + used.toNat ≤ 1 := by
  have hne := paths_ne.1
  induction ps generalizing used with
  | nil => cases used <;> simp [verdicts]
  | cons p ps ih =>
    rw [verdicts, List.forall_mem_cons, statusOf_eq_passed, List.forall_mem_cons, and_congr_right' (ih _)]
    by_cases hs : p = searchPath
    · subst hs
      cases used <;> simp [hne.symm]
    · simp [hs, and_assoc, beq_eq_false_iff_ne.2 hs]

/-! The suite -/

/-- The page between two loads, and what is known of the rest. -/
structure Between (used : Bool) (k : Nat) (d : Desk) : Prop where
  lock : d.lock = ⟨none, [], k⟩
  log : d.log.waiting = []
  page : Shows used d.page

/-- One path: its load is started, comes to its end, and the report is filed. -/
theorem leads_path (hsu : su.Bundled) (hd : su.driver = .default) (hw : w.Rested) (hb : Between used k d)
    (hclock : su.overflows d.now su.driver.timeoutSecs = false) (began : Nat) (p : String) (ps : List String)
    (results : List RunReport) (below : List Frame) :
    ∃ (w' : World) (d' : Desk) (r : RunReport),
      (w.working 0 d (.driveAll began (p :: ps) results :: below) none).Leads su
        (w'.working 0 d' (.driveAll began ps (results ++ [r]) :: below) none) ∧
      w'.Rested ∧ Between (used || p == searchPath) (k + 1) d' ∧ d'.now ≤ d.now + 25 ∧
      (r.path, r.status) = (p, statusOf used p) := by
  obtain ⟨w₁, main, t, hlaunched, hlaunches⟩ := hw.launches hclock (by rw [hd]; decide) (by rw [hd]; decide) hb.log
    began p ps results below
  have hlate : d.now + 25 < d.now + su.driver.pollIntervalMs := by
    rw [hd]
    show d.now + 25 < d.now + 50
    omega
  obtain ⟨w₂, d₂, hv⟩ := exists_visited (d := { d with allowance := fullAllowance }) hsu hlaunched.sole
    hlaunched.hushed hb.lock (Nat.succ_ne_zero _) hb.page hlate p
  obtain ⟨es, hlog, hstatus⟩ := hv.said
  obtain ⟨w₃, hrest, hfiles⟩ := hv.sole.files hv.hushed hlaunched.stack hlaunched.returned hlaunched.cancelled su d₂
    (hv.now.2.trans_lt hlate)
  refine ⟨w₃, { d₂ with log := d₂.log.drain.2, allowance := fullAllowance - 1 }, _,
    hlaunches.trans (hv.leads.trans hfiles), hrest, ⟨hv.lock, rfl, hv.page⟩, hv.now.2, ?_⟩
  have hes : d₂.log.waiting = es := by
    rw [hlog]
    show d.log.waiting ++ es = es
    rw [hb.log, List.nil_append]
  rw [hes]
  exact congrArg (p, ·) hstatus

/-- All paths, one after another. -/
theorem leads_paths (hsu : su.Bundled) (hd : su.driver = .default) (hw : w.Rested) (hb : Between used k d)
    (hclock : su.overflows (d.now + 25 * ps.length) su.driver.timeoutSecs = false) (began : Nat)
    (results : List RunReport) (below : List Frame) :
    ∃ (w' : World) (d' : Desk) (rs : List RunReport),
      (w.working 0 d (.driveAll began ps results :: below) none).Leads su
        (w'.working 0 d' (.driveAll began [] (results ++ rs) :: below) none) ∧
      w'.Rested ∧ rs.map (fun r => (r.path, r.status)) = verdicts used ps := by
  induction ps generalizing w d used k results with
  | nil => exact ⟨w, d, [], by rw [List.append_nil]; exact .refl, hw, rfl⟩
  | cons p ps ih =>
    rw [List.length_cons] at hclock
    obtain ⟨w₁, d₁, r, hleads, hw₁, hb₁, hnow, hr⟩ :=
      leads_path hsu hd hw hb (Setup.overflows_mono hclock (by omega)) began p ps results below
    obtain ⟨w₂, d₂, rs, hrest, hw₂, hrs⟩ := ih hw₁ hb₁ (Setup.overflows_mono hclock (by omega)) (results ++ [r])
    refine ⟨w₂, d₂, r :: rs, ?_, hw₂, ?_⟩
    · rw [List.append_cons]
      exact hleads.trans hrest
    · rw [verdicts, List.map_cons, hr, hrs]

/-- The session of a suite, from its first step to the answer. -/
theorem exists_suite (hsu : su.Bundled) (hd : su.driver = .default) (hpatience : su.patience = none)
    (hclock : su.overflows (25 * ps.length) su.driver.timeoutSecs = false) :
    ∃ (n : Nat) (rs : List RunReport) (ms : Nat), rs.map (fun r => (r.path, r.status)) = verdicts false ps ∧
      ∀ k, (Session.run su (n + k) (.ofSteps (.ofPage page) [.runPaths ps])).answers.map (·.outcome) =
        [.value (.suite (.ofResults rs ms))] := by
  set d : Desk := ⟨0, .empty, .empty, page, .free, fullAllowance⟩
  set w : World := .ofPage page
  have hrest : w.Rested := by
    refine ⟨⟨_, rfl, rfl⟩, fun i x hi hx => ?_, rfl, rfl, rfl, rfl, rfl, rfl⟩
    obtain ⟨i, rfl⟩ := Nat.exists_eq_succ_of_ne_zero hi
    cases hx
  have hbetween : Between false 0 d :=
    ⟨rfl, rfl, "", false, "none", [], [], page_eq, by simp, nofun, fun _ => ⟨rfl, rfl⟩⟩
  have hlater : su.overflows (d.now + 25 * ps.length) su.driver.timeoutSecs = false := by
    rw [show d.now + 25 * ps.length = 25 * ps.length from Nat.zero_add _]
    exact hclock
  obtain ⟨w₁, d₁, rs, hleads, hw₁, hrs⟩ := leads_paths hsu hd hrest hbetween hlater 0 [] []
  set s : Session := ⟨w.working 0 d [.driveAll 0 ps []] none, [], true, none, []⟩
  have hstart : Session.step? su (.ofSteps (.ofPage page) [.runPaths ps]) = some s := by
    simp only [Session.step?, Session.ofSteps, Session.startStep, World.begin, hpatience]
    rfl
  have hends : (w₁.working 0 d₁ [.driveAll 0 [] rs] none).Leads su
      (World.working { w₁ with suite := .ofResults rs d₁.now } 0 d₁ []
        (some (.value (.suite (.ofResults rs d₁.now))))) :=
    hw₁.engaged.leave rfl
  obtain ⟨x, hx, -⟩ := hw₁.main
  obtain ⟨n, hn⟩ := Session.exists_answer (s := s) (hleads.trans hends) rfl rfl rfl rfl rfl
    (task?_parked (w := { w₁ with suite := .ofResults rs d₁.now }) hx [] _) rfl rfl
  refine ⟨n + 1, rs, d₁.now, hrs, fun k => ?_⟩
  rw [Nat.add_right_comm, Session.run, hstart]
  exact hn k

theorem bundled_setup (epoch : Timestamp) (clockSecs : Nat) :
    (CommandLine.Program.setup epoch clockSecs .default).Bundled :=
  ⟨rfl, rfl, rfl, rfl⟩

/-- Any paths may be asked for, in any order and any number of times: there is a report on each, in that order. The
script with the values passes, so does the first search, and later searches fail like the failing script; no other
path can be loaded. The clock must be able to show every deadline. -/
theorem statuses_of_paths (epoch : Timestamp) (clockSecs : Nat) (ps : List String)
    (hclock : (CommandLine.Program.setup epoch clockSecs .default).overflows (25 * ps.length)
      DriverConfig.default.timeoutSecs = false) :
    ∃ (n : Nat) (suite : SuiteReport),
      (∀ m, n ≤ m → (Session.run (CommandLine.Program.setup epoch clockSecs .default) m
        (.ofSteps (.ofPage page) [.runPaths ps])).answers.map (·.outcome) = [.value (.suite suite)]) ∧
      suite.results.map (·.path) = ps ∧
      (∀ i r, suite.results[i]? = some r →
        (r.status = .passed ↔ r.path = valuesPath ∨ r.path = searchPath ∧ searchPath ∉ ps.take i) ∧
        (r.status = .failed ↔ r.path = failingPath ∨ r.path = searchPath ∧ searchPath ∈ ps.take i) ∧
        (r.status = .loadFailed ↔ r.path ≠ valuesPath ∧ r.path ≠ searchPath ∧ r.path ≠ failingPath)) ∧
      (suite.success = true ↔ (∀ p ∈ ps, p = valuesPath ∨ p = searchPath) ∧ ps.count searchPath ≤ 1) := by
  obtain ⟨n, rs, ms, hrs, hrun⟩ := exists_suite (bundled_setup epoch clockSecs) rfl rfl hclock
  have hpaths : rs.map (·.path) = ps := by
    rw [← verdicts_paths false ps, ← hrs, List.map_map]
    rfl
  refine ⟨n, .ofResults rs ms, fun m hm => ?_, hpaths, fun i r hr => ?_, ?_⟩
  · obtain ⟨k, rfl⟩ := Nat.exists_eq_add_of_le hm
    exact hrun k
  · have hr' : rs[i]? = some r := hr
    have hverdict : (r.path, r.status) = (r.path, statusOf ((ps.take i).contains searchPath) r.path) := by
      have hget := getElem?_verdicts false ps i
      rw [← hrs, ← hpaths, List.getElem?_map, List.getElem?_map, hr'] at hget
      rw [← hpaths]
      exact Option.some.inj hget
    rw [(Prod.mk.inj hverdict).2, statusOf_eq_passed, statusOf_eq_failed, statusOf_eq_loadFailed]
    simp
  · have hall := verdicts_passed false ps
    rw [← hrs, List.forall_mem_map] at hall
    exact (SuiteReport.success_ofResults rs ms).trans hall

/-- A second search fails, and so does the suite. -/
theorem statuses_of_two_searches :
    (CommandLine.Program.setup ⟨0, 0⟩ 0 .default).overflows (25 * [searchPath, valuesPath, searchPath, ""].length)
      DriverConfig.default.timeoutSecs = false ∧
    ∃ (n : Nat) (suite : SuiteReport),
      (Session.run (CommandLine.Program.setup ⟨0, 0⟩ 0 .default) n
        (.ofSteps (.ofPage page) [.runPaths [searchPath, valuesPath, searchPath, ""]])).answers.map (·.outcome) =
          [.value (.suite suite)] ∧
      suite.results.map (·.path) = [searchPath, valuesPath, searchPath, ""] ∧ suite.success = false := by
  have hclock : (CommandLine.Program.setup ⟨0, 0⟩ 0 .default).overflows
      (25 * [searchPath, valuesPath, searchPath, ""].length) DriverConfig.default.timeoutSecs = false := by decide
  obtain ⟨n, suite, hrun, hpaths, -, hsuccess⟩ :=
    statuses_of_paths ⟨0, 0⟩ 0 [searchPath, valuesPath, searchPath, ""] hclock
  refine ⟨hclock, n, suite, hrun n le_rfl, hpaths, Bool.eq_false_iff.2 fun h => ?_⟩
  exact absurd (hsuccess.1 h).2 (by decide)

end Demo

end PageTest
