import PageTest.Proofs.Forward.Loads
import PageTest.Proofs.Forward.Navigation

/-! The demo page, whatever was done to it by the demo scripts, and what the bodies of their tests come to on it. -/

namespace PageTest.Demo

open World

def checkbox : Nat := 2

/-- The page with a text in the field, the mark of the checkbox and the display of the results, and with what
listened to it and what happened on it. -/
def pageWith (text : String) (mark : Bool) (shown : String) (ls : List Listener) (ds : List Dispatch) : Page Action :=
  { page with
    elements := [.fresh "form" none false, { Element.fresh "input" (some form) false with value := some text },
      { Element.fresh "input" (some form) true with checked := some mark },
      { Element.fresh "div" none false with display := shown }, .fresh "a" none false]
    listeners := ls
    dispatched := ds }

theorem page_eq : page = pageWith "" false "none" [] [] := rfl

variable {text shown : String} {mark : Bool} {ls : List Listener} {ds : List Dispatch} {now : Nat}

theorem setText_field (depth : Nat) {sc : Scene} (h : sc.page = pageWith text mark shown ls ds) :
    sc.setText now depth field "fn main" = ({ sc with
      page := pageWith "fn main" mark "block" ls (ds ++ [⟨field, "input", true⟩]) }, .value .done) := by
  obtain ⟨p, slots, handlers, notices, trace⟩ := sc
  subst h
  rfl

theorem clickCheckbox_checkbox (depth : Nat) {sc : Scene} (h : sc.page = pageWith text mark shown ls ds) :
    sc.clickCheckbox now depth checkbox = ({ sc with
      page := pageWith text (!mark) shown ls (ds ++ [⟨checkbox, "change", true⟩]) }, .value .done) := by
  obtain ⟨p, slots, handlers, notices, trace⟩ := sc
  subst h
  rfl

theorem click_link (depth : Nat) {sc : Scene} (h : sc.page = pageWith text mark shown ls ds) :
    sc.click now depth link = ({ sc with
      page := pageWith text mark shown ls (ds ++ [⟨link, "click", true⟩])
      notices := sc.notices ++ [.navigated] }, .value .done) := by
  obtain ⟨p, slots, handlers, notices, trace⟩ := sc
  subst h
  rfl

/-! Bodies -/

variable {su : Setup} {w : World} {main : Task} {t due : Nat} {d : Desk} {below : List Frame}

/-- Typing shows the results. Whether they were hidden before depends on what the page shows. -/
theorem leads_typing (hw : w.Engaged t) (hn : w.scene.notices = []) (htries : su.driver.harness.wait.maxTries ≠ 0)
    (hd : d.page = pageWith text mark shown ls ds) :
    (w.working t d (.steps .hidden [] none typingShowsResults :: below) none).Leads su
      (w.working t ((d.write [Check.is (.text shown) (.text "none") "results start hidden",
          ⟨.pass, "results shown after typing"⟩, ⟨.pass, "query keeps typed text"⟩]).turnTo
        (pageWith "fn main" mark "block" ls (ds ++ [⟨field, "input", true⟩])))
      (.steps .hidden [field, results] none [] :: below) none) := by
  have hinput (d : Desk) (hd : d.page = pageWith text mark shown ls ds) :
      (Step.setText (.found 0) "fn main").Does su [field, results] d
        (d.turnTo (pageWith "fn main" mark "block" ls (ds ++ [⟨field, "input", true⟩]))) .done :=
    fun w t stack hn => input_found (h := field) rfl (fun sc h => setText_field _ (h.trans hd)) hn stack
  obtain ⟨now, log, registry, q, lock, allowance⟩ := d
  obtain rfl : q = _ := hd
  rw [typingShowsResults]
  refine (hw.step hn (does_find (h := field) rfl)).trans ?_
  refine (hw.step hn (does_find (h := results) rfl)).trans ?_
  refine (hw.step hn (does_isDisplay (h := results) (v := shown) rfl rfl _ _)).trans ?_
  refine (hw.step hn (hinput _ rfl)).trans ?_
  refine (hw.shown (h := results) (v := "block") rfl rfl (by decide) htries).trans ?_
  refine (hw.step hn (does_isValue (h := field) (v := "fn main") rfl rfl _ _)).of_eq ?_
  simp only [Desk.write_turnTo, Desk.write_write]
  rfl

/-- The checkbox is turned over. -/
theorem leads_toggle (hw : w.Engaged t) (hn : w.scene.notices = []) (hd : d.page = pageWith text mark shown ls ds) :
    (w.working t d (.steps .hidden [] none caseToggle :: below) none).Leads su
      (w.working t ((d.write [Check.ok (mark == false) "unchecked by default",
          Check.ok ((!mark) == true) "checked after click"]).turnTo
        (pageWith text (!mark) shown ls (ds ++ [⟨checkbox, "change", true⟩])))
      (.steps .hidden [checkbox] none [] :: below) none) := by
  have hinput (d : Desk) (hd : d.page = pageWith text mark shown ls ds) :
      (Step.clickCheckbox (.found 0)).Does su [checkbox] d
        (d.turnTo (pageWith text (!mark) shown ls (ds ++ [⟨checkbox, "change", true⟩]))) .done :=
    fun w t stack hn => input_found (h := checkbox) rfl (fun sc h => clickCheckbox_checkbox _ (h.trans hd)) hn stack
  obtain ⟨now, log, registry, q, lock, allowance⟩ := d
  obtain rfl : q = _ := hd
  rw [caseToggle]
  refine (hw.step hn (does_find (h := checkbox) rfl)).trans ?_
  refine (hw.step hn (does_okChecked (h := checkbox) (b := mark) rfl rfl _ _)).trans ?_
  refine (hw.step hn (hinput _ rfl)).trans ?_
  refine (hw.step hn (does_okChecked (h := checkbox) (b := !mark) rfl rfl _ _)).of_eq ?_
  simp only [Desk.write_turnTo, Desk.write_write]
  rfl

/-- The link is followed. -/
theorem leads_navigation (hw : w.Sole main t) (hh : w.Hushed due) (hdeaf : su.deaf = false)
    (hd : d.page = pageWith text mark shown ls ds) (hl : ∀ l ∈ ls, l.state ≠ .waiting) (hlate : d.now + 25 < due)
    (below : List Frame) : ∃ w' : World, w'.Sole main t ∧ w'.Hushed due ∧
      (w.working t d (.steps .hidden [] none navigation :: below) none).Leads su
        (w'.working t
          { d.write [⟨.info, "Frame loaded, waiting for pageshow"⟩, ⟨.info, "Page shown"⟩, ⟨.info, "navigated"⟩] with
            now := d.now + 25
            page := pageWith text mark shown (ls ++ [⟨.frame, "load", .fired⟩, ⟨.window, "pageshow", .fired⟩])
              (ds ++ [⟨link, "click", true⟩])
            allowance := fullAllowance - 1 }
        (.steps .hidden [link] none [] :: below) none) := by
  have hengaged := hw.engaged hh
  have hfound : [link][0]? = some link := rfl
  obtain ⟨w', hw', hh', hnav⟩ := hw.navigates hh hdeaf hfound (fun sc h => click_link _ (h.trans hd)) hl hlate none
    [.info "navigated"] below
  have hengaged' := hw'.engaged hh'
  refine ⟨w', hw', hh', (hengaged.step hh.notices (does_find (h := link) (by rw [hd]; rfl))).trans (hnav.trans ?_)⟩
  refine (hengaged'.step hh'.notices (does_info _)).of_eq ?_
  simp [Desk.write, Log.appendAll, Page.heard, pageWith, Check.info, Frame.foundAfter]

/-- Values are compared. -/
theorem leads_values (hw : w.Hushed due) (hf : w.Free t) (ht : t ≠ 0) (hlate : d.now + 10 < due) :
    (w.working t d (.steps .hidden [] none sameValueChecks :: below) none).Leads su
      (w.working t { d.write [⟨.pass, "nan check"⟩, ⟨.pass, "signed zeros differ"⟩, ⟨.pass, "strings"⟩,
          ⟨.info, "values done"⟩] with now := d.now + 10, allowance := fullAllowance - 1 }
        (.steps .hidden [] none [] :: below) none) := by
  have hengaged := hf.engaged hw.busy
  rw [sameValueChecks]
  refine (hengaged.step hw.notices (does_is _ _ _)).trans ?_
  refine (hengaged.step hw.notices (does_isnot _ _ _)).trans ?_
  refine (hengaged.step hw.notices (does_is _ _ _)).trans ?_
  refine (hengaged.begins fun _ => rfl).trans ?_
  refine (hw.sleeps hf ht (by decide) (by exact hlate)).trans (hengaged.resumes.trans ?_)
  refine (hengaged.step hw.notices (does_info _)).of_eq ?_
  simp only [Desk.write, Log.appendAll, List.append_assoc]
  rfl

/-- A check fails, and the test goes on. -/
theorem leads_wrong (hw : w.Engaged t) (hn : w.scene.notices = []) :
    (w.working t d (.steps .hidden [] none wrongExpectation :: below) none).Leads su
      (w.working t (d.write [⟨.fail, "arithmetic - Got 4, expected 5"⟩, ⟨.pass, "keeps going after a failed check"⟩])
        (.steps .hidden [] none [] :: below) none) := by
  rw [wrongExpectation]
  refine (hw.step hn (does_is _ _ _)).trans ((hw.step hn (does_ok _ _)).of_eq ?_)
  rw [Desk.write_write]
  rfl

/-- The page has no such element. -/
theorem leads_missing (hw : w.Engaged t) (hd : d.page = pageWith text mark shown ls ds) :
    (w.working t d (.steps .hidden [] none missingElement :: below) none).Leads su
      (w.working t d below (some (.fault (.page (.noMatch "#does-not-exist"))))) := by
  obtain ⟨now, log, registry, q, lock, allowance⟩ := d
  obtain rfl : q = _ := hd
  exact hw.fails rfl fun _ => rfl

end PageTest.Demo
