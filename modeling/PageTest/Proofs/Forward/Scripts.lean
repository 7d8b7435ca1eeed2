import PageTest.Proofs.Forward.SearchPage

/-! A load of any path on the demo page, from its start to its end. -/

namespace PageTest

open World

/-- The demo scripts, as they are loaded by a driver that keeps the defaults of the harness. -/
structure Setup.Bundled (su : Setup) : Prop where
  catalog : su.catalog = Demo.catalog
  harness : su.driver.harness = .default
  loader : su.loader = ⟨0, none⟩
  deaf : su.deaf = false

namespace Demo

/-- What the page shows: as it was at first, or as it is after somebody has typed. -/
def Shows (used : Bool) (p : Page Action) : Prop :=
  ∃ text mark shown ls ds, p = pageWith text mark shown ls ds ∧ (∀ l ∈ ls, l.state ≠ .waiting) ∧
    (used = true → shown = "block") ∧ (used = false → mark = false ∧ shown = "none")

/-- What becomes of a path. Only the script for the search leaves traces on the page. -/
def statusOf (used : Bool) (p : String) : RunStatus :=
  if p = valuesPath then .passed
  else if p = searchPath then (if used then .failed else .passed)
  else if p = failingPath then .failed
  else .loadFailed

variable {su : Setup} {w w' : World} {main : Task} {t due k : Nat} {d d' : Desk} {p : String} {used : Bool}

/-- A load has come to its end. -/
structure Visited (su : Setup) (main : Task) (t due k : Nat) (p : String) (used : Bool) (w : World) (d : Desk)
    (w' : World) (d' : Desk) : Prop where
  leads : (w.working t d [.load p .arriving] none).Leads su (w'.working t d' [] (some (.value .done)))
  sole : w'.Sole main t
  hushed : w'.Hushed due
  lock : d'.lock = ⟨none, [], k + 1⟩
  now : d.now ≤ d'.now ∧ d'.now ≤ d.now + 25
  page : Shows (used || p == searchPath) d'.page
  said : ∃ es, d'.log = d.log.appendAll es ∧ (Tally.ofLogs p es).status false = statusOf used p

/-- The script is found, and its tests are about to run. -/
theorem leads_script (hsu : su.Bundled) (hw : w.Engaged t) (hn : w.scene.notices = []) (hl : d.lock = ⟨none, [], k⟩)
    (ha : d.allowance ≠ 0) (bodies : List (String × List Step)) (hs : catalog.script? p = some (script p bodies))
    (hp : Frame.startsWith p HarnessConfig.default.pathStart = true) :
    (w.working t d [.load p .arriving] none).Leads su
      (w.working t { d.write [⟨.testStart, p⟩] with
          registry := ⟨[], .running⟩, lock := ⟨some k, [], k + 1⟩, allowance := d.allowance - 1 }
        [.pass none (bodies.map fun b => ⟨b.1, b.2, none, true⟩), .load p (.running k)] none) := by
  have hpanic : su.loader.panicOn = none := by rw [hsu.loader]
  refine (hw.draws hl ha).trans ((hw.opens (by rw [hsu.harness]; exact hp) (by rw [hsu.loader])).trans ?_)
  exact hw.registers hn hpanic (by rw [hsu.catalog]; exact hs) rfl

theorem visits_values (hsu : su.Bundled) (hw : w.Sole main t) (hh : w.Hushed due) (hl : d.lock = ⟨none, [], k⟩)
    (ha : d.allowance ≠ 0) (hp : Shows used d.page) (hlate : d.now + 25 < due) :
    ∃ w' d', Visited su main t due k valuesPath used w d w' d' := by
  have hn := hh.notices
  have he := hw.engaged hh
  refine ⟨w, _, (leads_script hsu he hn hl ha [("same_value_checks", sameValueChecks)] rfl (by decide)).trans
    ((he.runs he rfl rfl (leads_values hh hw.free hw.ne (by show d.now + 10 < due; omega))).trans
      (he.completes.trans (he.closes rfl))), hw, hh, rfl, ?_, ?_, ?_⟩
  · simp [Desk.write]
  · simpa [Desk.write, valuesPath, searchPath] using hp
  · exact ⟨_, by simp only [Desk.write, Log.appendAll_appendAll]; rfl, rfl⟩

/-- The tests of the search up to the last one, on a page that may have been used before. -/
theorem leads_search (hsu : su.Bundled) (hw : w.Engaged t) (hn : w.scene.notices = []) (hl : d.lock = ⟨none, [], k⟩)
    (ha : d.allowance ≠ 0) {text shown : String} {mark : Bool} {ls : List Listener} {ds : List Dispatch}
    (hp : d.page = pageWith text mark shown ls ds) :
    ∃ d' ds', (w.working t d [.load searchPath .arriving] none).Leads su
        (w.working t d' [.pass none [⟨"navigation", navigation, none, true⟩], .load searchPath (.running k)] none) ∧
      d'.lock = ⟨some k, [], k + 1⟩ ∧ d'.now = d.now ∧ d'.page = pageWith "fn main" (!mark) "block" ls ds' ∧
      d'.log = d.log.appendAll [⟨.testStart, searchPath⟩,
        ⟨.subtest, "typing_shows_results"⟩, ⟨.info, Subtest.entering "typing_shows_results"⟩,
        Check.is (.text shown) (.text "none") "results start hidden", ⟨.pass, "results shown after typing"⟩,
        ⟨.pass, "query keeps typed text"⟩, ⟨.info, Subtest.leaving "typing_shows_results"⟩,
        ⟨.subtest, "case_toggle"⟩, ⟨.info, Subtest.entering "case_toggle"⟩,
        Check.ok (mark == false) "unchecked by default", Check.ok ((!mark) == true) "checked after click",
        ⟨.info, Subtest.leaving "case_toggle"⟩] := by
  have htries : su.driver.harness.wait.maxTries ≠ 0 := by rw [hsu.harness]; decide
  refine ⟨?d, ds ++ [⟨field, "input", true⟩] ++ [⟨checkbox, "change", true⟩], ?leads, ?rest⟩
  case leads =>
    refine (leads_script hsu hw hn hl ha [("typing_shows_results", typingShowsResults),
      ("case_toggle", caseToggle), ("navigation", navigation)] rfl (by decide)).trans ?_
    refine (hw.runs hw rfl rfl (leads_typing hw hn htries (by exact hp))).trans ?_
    refine (hw.runs hw rfl rfl (leads_toggle hw hn (by rfl))).trans ?_
    exact .refl
  case rest =>
    refine ⟨rfl, rfl, rfl, ?_⟩
    simp only [Desk.write, Log.appendAll_appendAll, Desk.turnTo]
    rfl

theorem visits_search (hsu : su.Bundled) (hw : w.Sole main t) (hh : w.Hushed due) (hl : d.lock = ⟨none, [], k⟩)
    (ha : d.allowance ≠ 0) (hp : Shows used d.page) (hlate : d.now + 25 < due) :
    ∃ w' d', Visited su main t due k searchPath used w d w' d' := by
  obtain ⟨text, mark, shown, ls, ds, hpage, hls, hused, hfresh⟩ := hp
  have he := hw.engaged hh
  obtain ⟨d₁, ds₁, hfirst, hl₁, hnow₁, hp₁, hlog₁⟩ := leads_search hsu he hh.notices hl ha hpage
  obtain ⟨w', hw', hh', hnav⟩ := leads_navigation
    (d := d₁.write [⟨.subtest, "navigation"⟩, ⟨.info, Subtest.entering "navigation"⟩])
    hw hh hsu.deaf hp₁ hls (by show d₁.now + 25 < due; omega)
    [.pass (some ⟨"navigation", navigation, none, true⟩) [], .load searchPath (.running k)]
  have he' := hw'.engaged hh'
  refine ⟨w', _, hfirst.trans ((he.runs he' rfl rfl hnav).trans (he'.completes.trans (he'.closes (by exact hl₁)))),
    hw', hh', rfl, ?_, ?_, ?_⟩
  · simp [Desk.write, hnow₁]
  · rw [beq_self_eq_true, Bool.or_true]
    refine ⟨_, _, _, _, _, rfl, fun l hl => ?_, fun _ => rfl, by simp⟩
    rcases List.mem_append.1 hl with h | h
    · exact hls l h
    · fin_cases h <;> simp
  · refine ⟨_, by simp only [Desk.write, hlog₁, Log.appendAll_appendAll]; rfl, ?_⟩
    cases used with
    | false =>
      obtain ⟨rfl, rfl⟩ := hfresh rfl
      rfl
    | true =>
      obtain rfl := hused rfl
      cases mark <;> rfl

theorem visits_failing (hsu : su.Bundled) (hw : w.Sole main t) (hh : w.Hushed due) (hl : d.lock = ⟨none, [], k⟩)
    (ha : d.allowance ≠ 0) (hp : Shows used d.page) :
    ∃ w' d', Visited su main t due k failingPath used w d w' d' := by
  have hpage := hp
  obtain ⟨text, mark, shown, ls, ds, hd, -⟩ := hpage
  have hn := hh.notices
  have he := hw.engaged hh
  refine ⟨w, ?d, ?leads, hw, hh, ?lock, ?now, ?page, ?said⟩
  case leads =>
    refine (leads_script hsu he hn hl ha [("wrong_expectation", wrongExpectation),
      ("missing_element", missingElement), ("never_runs", neverRuns)] rfl (by decide)).trans ?_
    refine (he.runs he rfl rfl (leads_wrong he hn)).trans ((he.enters rfl rfl).trans ?_)
    refine (leads_missing he (by exact hd)).trans (he.aborts.trans ?_)
    refine (he.closes (n := k + 1) (by rfl)).trans ?_
    exact .refl
  case lock => rfl
  case now => simp [Desk.write]
  case page => simpa [Desk.write, failingPath, searchPath] using hp
  case said => exact ⟨_, by simp only [Desk.write, Log.appendAll_appendAll]; rfl, rfl⟩

/-- There is no such script, or the path does not start as it should. -/
theorem visits_unknown (hsu : su.Bundled) (hw : w.Sole main t) (hh : w.Hushed due) (hl : d.lock = ⟨none, [], k⟩)
    (ha : d.allowance ≠ 0) (hp : Shows used d.page) (hv : p ≠ valuesPath) (hs : p ≠ searchPath) (hf : p ≠ failingPath) :
    ∃ w' d', Visited su main t due k p used w d w' d' := by
  have he := hw.engaged hh
  have hpanic : su.loader.panicOn = none := by rw [hsu.loader]
  have hmissing : su.catalog.script? p = none := by
    rw [hsu.catalog]
    simp [Catalog.script?, catalog, script, hv.symm, hs.symm, hf.symm]
  have hb : (p == searchPath) = false := beq_eq_false_iff_ne.2 hs
  cases hstart : Frame.startsWith p su.driver.harness.pathStart with
  | true =>
    refine ⟨w, _, (he.draws hl ha).trans ((he.opens hstart (by rw [hsu.loader])).trans
      (he.misses rfl hpanic hmissing)), hw, hh, rfl, by simp [Desk.write], by simpa [Desk.write, hb] using hp,
      [⟨.testStart, p⟩, ⟨.fail, Frame.noSuchScript p⟩], ?_, ?_⟩
    · simp only [Desk.write, Log.appendAll_appendAll]
      rfl
    · simp only [statusOf, hv, hs, hf, if_false]
      rfl
  | false =>
    refine ⟨w, _, (he.draws hl ha).trans (he.refuses rfl hstart), hw, hh, rfl, by simp [Desk.write],
      by simpa [Desk.write, hb] using hp, [⟨.fail, Frame.unsupportedPath p⟩], rfl, ?_⟩
    simp only [statusOf, hv, hs, hf, if_false]
    rfl

/-- Whatever the path, its load comes to an end, and what the driver finds in the log gives the status. -/
theorem exists_visited (hsu : su.Bundled) (hw : w.Sole main t) (hh : w.Hushed due) (hl : d.lock = ⟨none, [], k⟩)
    (ha : d.allowance ≠ 0) (hp : Shows used d.page) (hlate : d.now + 25 < due) (p : String) :
    ∃ w' d', Visited su main t due k p used w d w' d' := by
  by_cases hv : p = valuesPath
  · exact hv ▸ visits_values hsu hw hh hl ha hp hlate
  by_cases hs : p = searchPath
  · exact hs ▸ visits_search hsu hw hh hl ha hp hlate
  by_cases hf : p = failingPath
  · exact hf ▸ visits_failing hsu hw hh hl ha hp
  exact visits_unknown hsu hw hh hl ha hp hv hs hf

end Demo

end PageTest
