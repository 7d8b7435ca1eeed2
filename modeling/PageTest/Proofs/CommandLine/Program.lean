import PageTest.CommandLine.Program
import PageTest.Proofs.CommandLine.Files
import PageTest.Proofs.Drive.Filed

/-! What the program leaves behind: its exit code, its output and the results file agree with each other, and
with the paths that were asked for. -/

namespace PageTest.CommandLine.Program

/-- The settings before the options of the command line: those of the file that is named, or else the
defaults. -/
def settings? (fs : Files) (a : Arguments) : Except ConfigError DriverConfig :=
  match a.config with
  | none => .ok .default
  | some path => DriverConfig.ofFile (fs.read path)

/-- Where the results go: the directory of the command line before that of the settings. -/
def resultsPath (a : Arguments) (c : DriverConfig) : String := Files.join (a.output.getD c.outputDir) resultsName

/-- A suite that has one report for each path, in order, and counts them. -/
structure Accounts (paths : List String) (s : SuiteReport) : Prop where
  paths : s.results.map (·.path) = paths
  total : s.total = s.results.length
  sum : s.passed + s.failed = s.total
  passed : s.passed = s.results.countP (·.status = .passed)

theorem resultsName_plain : Files.Plain resultsName := ⟨by decide, by decide, by decide, by decide⟩

theorem accounts_of_files {paths : List String} {s : SuiteReport} (h : s.Files paths) : Accounts paths s := by
  obtain ⟨results, ms, rfl, hp⟩ := h
  have le : results.countP (·.success) ≤ results.length := List.countP_le_length
  exact ⟨hp, rfl, Nat.add_sub_cancel' le, by simp [SuiteReport.ofResults, RunReport.success, BEq.beq]⟩

/-- How a run that failed leaves the tree: with new directories at most, or else with the first part of the
results of all its paths. The latter takes a tree that refuses a change. -/
inductive Left (fs : Files) (a : Arguments) (c : DriverConfig) (fs' : Files) : Prop
  | unopened : Files.Widens fs fs' → Left fs a c fs'
  | begun {fs₁ : Files} {s : SuiteReport} : fs.room ≠ none → Files.Widens fs fs₁ → Accounts (pathsOf a) s →
      Files.Begun fs₁ (resultsPath a c) resultsName s.fileText.toUTF8 fs' → Left fs a c fs'

/-- How a run ends: with its results in their place, or without any output. -/
inductive Ended (fs : Files) (a : Arguments) (c : DriverConfig) (fs' : Files) (e : Ending) : Prop
  | reported {s : SuiteReport} : Accounts (pathsOf a) s →
      fs'.read (resultsPath a c) = .bytes s.fileText.toUTF8 → (e.code = 0 ∧ s.failed = 0 ∨ e.code = 1 ∧ s.failed ≠ 0) →
      e.output = (if a.json then s.fileText ++ "\n" else "") → Ended fs a c fs' e
  | failed : e.code = 2 ∨ e.code = 101 → e.output = "" → Left fs a c fs' → Ended fs a c fs' e

variable {epoch : Timestamp} {clockSecs : Nat} {fs fs' : Files} {a : Arguments} {c : DriverConfig} {e : Ending}

theorem ended_writeResults {s : SuiteReport} (accounts : Accounts (pathsOf a) s)
    (h : run fs (writeResults (a.output.getD c.outputDir) a.json s) = (fs', e)) : Ended fs a c fs' e := by
  have widens := Files.widens_makeDirectories fs (a.output.getD c.outputDir)
  simp only [writeResults, run] at h
  cases made : (fs.makeDirectories (a.output.getD c.outputDir)).2 with
  | false =>
    rw [made] at h
    obtain ⟨rfl, rfl⟩ := Prod.mk.inj h
    exact .failed (.inl rfl) rfl (.unopened widens)
  | true =>
    rw [made] at h
    obtain ⟨whole, part⟩ := Files.write_spec (fs.makeDirectories (a.output.getD c.outputDir)).1
      (a.output.getD c.outputDir) s.fileText resultsName_plain
    simp only [if_true, run] at h
    split at h
    next written =>
      obtain ⟨rfl, rfl⟩ := Prod.mk.inj h
      refine .reported accounts (whole written) ?_ rfl
      cases failed : s.success with
      | true => exact .inl ⟨by simp, by simpa [SuiteReport.success] using failed⟩
      | false => exact .inr ⟨by simp, by simpa [SuiteReport.success] using failed⟩
    next unwritten =>
      obtain ⟨rfl, rfl⟩ := Prod.mk.inj h
      refine .failed (.inl rfl) rfl ?_
      rcases part (by simpa using unwritten) with same | ⟨refuses, begun⟩
      · exact .unopened (by rw [same]; exact widens)
      · exact .begun (fun unlimited => refuses (Files.room_makeDirectories fs _ unlimited)) widens accounts begun

theorem ended_runWith (h : run fs (runWith epoch clockSecs a c) = (fs', e)) : Ended fs a c fs' e := by
  unfold runWith at h
  dsimp only at h
  split at h
  next s hs =>
    have files := Session.outcome_files (w := .ofPage Demo.page) (by decide) hs
    exact ended_writeResults (accounts_of_files files) h
  all_goals
    obtain ⟨rfl, rfl⟩ := Prod.mk.inj h
  · exact .failed (.inr rfl) rfl (.unopened (.refl _))
  · exact .failed (.inl rfl) rfl (.unopened (.refl _))
  · exact .failed (.inl rfl) rfl (.unopened (.refl _))

theorem ended_perform (hl : a.list = false) (h : run fs (perform epoch clockSecs a) = (fs', e)) :
    (∃ c, settings? fs a = .ok c ∧ Ended fs a c fs' e) ∨ (e.code = 2 ∧ e.output = "" ∧ fs' = fs) := by
  unfold perform at h
  unfold settings?
  rw [hl, if_neg Bool.false_ne_true] at h
  cases hc : a.config with
  | none =>
    rw [hc] at h
    exact .inl ⟨_, rfl, ended_runWith h⟩
  | some path =>
    simp only [hc, run] at h ⊢
    cases hf : DriverConfig.ofFile (fs.read path) with
    | error err =>
      rw [hf] at h
      obtain ⟨rfl, rfl⟩ := Prod.mk.inj h
      exact .inr ⟨rfl, rfl, rfl⟩
    | ok c =>
      rw [hf] at h
      exact .inl ⟨c, rfl, ended_runWith h⟩

/-- A run that ends with 0 or 1 has left the results of all its paths in the directory that the command line
or else the settings name, prints the same text if asked to, and ends with 0 exactly if no path failed. One
that ends with 2 has printed nothing. It has left new directories at most, unless the file system stopped
taking changes amid the results: then the results file holds their first part. A list of the scripts needs no
run at all. -/
theorem exit_code_agrees {fromEnvironment : Option String} {args : List String}
    (h : Request.ofArguments fromEnvironment args = .ok (.run a))
    (hr : run fs (ofArguments epoch clockSecs fromEnvironment args) = (fs', e)) :
    (a.list = false → e.code = 0 ∨ e.code = 1 → ∃ (c : DriverConfig) (s : SuiteReport), settings? fs a = .ok c ∧
      fs'.read (Files.join (a.output.getD c.outputDir) "test-results.json") = .bytes s.fileText.toUTF8 ∧
      s.results.map (·.path) = (if a.paths = [] then Demo.catalog.paths else a.paths) ∧
      s.total = s.passed + s.failed ∧ s.total = s.results.length ∧
      s.passed = s.results.countP (·.status = .passed) ∧
      (e.code = 0 ↔ s.failed = 0) ∧ e.output = (if a.json then s.fileText ++ "\n" else "")) ∧
    (e.code = 2 → e.output = "" ∧
      (Files.Widens fs fs' ∨ fs.room ≠ none ∧ ∃ (c : DriverConfig) (s : SuiteReport) (fs₁ : Files),
        settings? fs a = .ok c ∧ Accounts (pathsOf a) s ∧ Files.Widens fs fs₁ ∧
        Files.Begun fs₁ (resultsPath a c) "test-results.json" s.fileText.toUTF8 fs')) ∧
    (a.list = true → ofArguments epoch clockSecs fromEnvironment args = .ends e ∧ fs' = fs ∧ e.code = 0 ∧
      e.output = String.join (Demo.catalog.paths.map (· ++ "\n"))) ∧
    Demo.catalog.paths.Pairwise (· < ·) ∧ DriverConfig.default.outputDir = "test-results" := by
  have program : ofArguments epoch clockSecs fromEnvironment args = perform epoch clockSecs a := by
    rw [ofArguments, h]
  rw [program] at hr ⊢
  refine ⟨fun hl code => ?_, fun code => ?_, fun hl => ?_, by decide, rfl⟩
  · rcases ended_perform hl hr with ⟨c, hc, ended⟩ | ⟨two, -⟩
    · cases ended with
      | @reported s accounts file exit output =>
        refine ⟨c, s, hc, file, ?_, accounts.sum.symm, accounts.total, accounts.passed, ?_, output⟩
        · rw [accounts.paths, pathsOf]
          simp only [List.isEmpty_iff]
        · rcases exit with ⟨zero, none⟩ | ⟨one, some⟩
          · simp [zero, none]
          · simp [one, some]
      | failed other => omega
    · omega
  · cases hl : a.list with
    | true =>
      rw [perform, hl, if_pos rfl] at hr
      obtain ⟨rfl, rfl⟩ := Prod.mk.inj hr
      exact absurd code (by decide)
    | false =>
      rcases ended_perform hl hr with ⟨c, hc, ended⟩ | ⟨-, output, rfl⟩
      · cases ended with
        | reported _ _ exit _ => omega
        | failed _ output left =>
          cases left with
          | unopened widens => exact ⟨output, .inl widens⟩
          | begun refuses widens accounts begun =>
            exact ⟨output, .inr ⟨refuses, c, _, _, hc, accounts, widens, begun⟩⟩
      · exact ⟨output, .inl (.refl _)⟩
  · rw [perform, hl, if_pos rfl] at hr ⊢
    obtain ⟨rfl, rfl⟩ := Prod.mk.inj hr
    exact ⟨rfl, rfl, rfl, rfl⟩

/-- A path without a script, on an empty disk. -/
theorem exit_code_agrees_nowhere :
    ∃ (fs' : Files) (e : Ending) (s : SuiteReport),
      run .empty (ofArguments ⟨0, 0⟩ 0 none ["--json", "nowhere"]) = (fs', e) ∧ e.code = 1 ∧
      fs'.read "test-results/test-results.json" = .bytes s.fileText.toUTF8 ∧
      s.results.map (·.path) = ["nowhere"] ∧ s.failed ≠ 0 ∧ e.output = s.fileText ++ "\n" := by
  have asked : Request.ofArguments none ["--json", "nowhere"] =
      .ok (.run ⟨["nowhere"], none, none, none, true, false⟩) := by decide
  have code : (run .empty (ofArguments ⟨0, 0⟩ 0 none ["--json", "nowhere"])).2.code = 1 := by decide +kernel
  obtain ⟨done, -⟩ := exit_code_agrees asked rfl
  obtain ⟨c, s, settings, file, paths, -, -, -, exit, output⟩ := done rfl (.inr code)
  obtain rfl : DriverConfig.default = c := Except.ok.inj settings
  refine ⟨_, _, s, rfl, code, file, paths, ?_, output⟩
  rw [Ne, ← exit, code]
  decide

/-- A disk that takes three changes: the directory, the file, and one byte of it. -/
def crammed : Files := { Files.empty with room := some 3 }

/-- Who asks for the version gets it, and no results. A disk that runs full is left with a results file that
holds no results. -/
theorem exit_code_agrees_not_all :
    run .empty (ofArguments ⟨0, 0⟩ 0 none ["--version"]) = (.empty, ⟨0, "webtest 0.1.0\n", ""⟩) ∧
    (run crammed (ofArguments ⟨0, 0⟩ 0 none ["nowhere"])).2.code = 2 ∧
    ((run crammed (ofArguments ⟨0, 0⟩ 0 none ["nowhere"])).1.read "test-results/test-results.json").text? =
      some "\x7b" := by
  refine ⟨rfl, by decide +kernel, by decide +kernel⟩

end PageTest.CommandLine.Program
