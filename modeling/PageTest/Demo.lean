import PageTest.Page.Events
import PageTest.Script

/-! A page and scripts to try the program with. The page is a search form: typing into the field shows the
results, there is a checkbox, and a link makes the frame navigate. -/

namespace PageTest.Demo

def searchPath : String := "tests/webtest/search.js"
def valuesPath : String := "tests/webtest/values.js"
def failingPath : String := "tests/webtest/failing.js"

def element (tag id : String) (parent : Option Nat) (checkbox : Bool) (p : Page Action) : Page Action :=
  (p.push parent tag id checkbox).2

def form : Nat := 0
def field : Nat := 1
def results : Nat := 3
def link : Nat := 4

def page : Page Action :=
  let p := element "form" "search" none false .empty
  let p := element "input" "query" (some form) false p
  let p := element "input" "case-sensitive" (some form) true p
  let p := element "div" "results" none false p
  let p := element "a" "open" none false p
  let p := p.modify results fun e => { e with display := "none" }
  (p.addHandler form "input" (.reveal field results)).addHandler link "click" .navigate

def typingShowsResults : List Step := [
  .find "#query",
  .find "#results",
  .isDisplay (.found 1) "none" "results start hidden",
  .setText (.found 0) "fn main",
  .waitShown (.found 1) "results shown after typing" none,
  .isValue (.found 0) "fn main" "query keeps typed text"]

def caseToggle : List Step := [
  .find "#case-sensitive",
  .okChecked (.found 0) false "unchecked by default",
  .clickCheckbox (.found 0),
  .okChecked (.found 0) true "checked after click"]

def navigation : List Step := [
  .find "#open",
  .click (.found 0),
  .waitLoad,
  .info "navigated"]

def nan : Binary := .ofBits .double 0x7ff8000000000000
def zero : Binary := .ofBits .double 0
def minusZero : Binary := .ofBits .double 0x8000000000000000

def sameValueChecks : List Step := [
  .is (.double nan) (.double nan) "nan check",
  .isnot (.double zero) (.double minusZero) "signed zeros differ",
  .is (.text "webtest") (.text "webtest") "strings",
  .sleep 10,
  .info "values done"]

def wrongExpectation : List Step := [
  .is (.integer (2 + 2)) (.integer 5) "arithmetic",
  .ok true "keeps going after a failed check"]

def missingElement : List Step := [
  .find "#does-not-exist",
  .ok true "unreachable"]

def neverRuns : List Step := [.ok true "after abort"]

/-- A script whose registration leaves no trace, like the tests it registers. -/
def script (path : String) (tests : List (String × List Step)) : Script :=
  ⟨path, tests.map fun (name, body) => .addTest name body none true, true⟩

def catalog : Catalog :=
  [script failingPath [("wrong_expectation", wrongExpectation), ("missing_element", missingElement),
      ("never_runs", neverRuns)],
    script searchPath [("typing_shows_results", typingShowsResults), ("case_toggle", caseToggle),
      ("navigation", navigation)],
    script valuesPath [("same_value_checks", sameValueChecks)]]

end PageTest.Demo
