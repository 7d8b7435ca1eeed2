import PageTest.Proofs.Json.Written
import PageTest.Proofs.Time.Timestamp
import PageTest.Report.Wire

/-! Reports and log entries survive being written and read, but for a start in a second that ran on before the
end of its minute: its text is that of the next second. Counts must fit into 64 bits, and the instants must be
ones that can be kept; names and messages may be any texts. -/

namespace PageTest

open Json (Plain)

namespace Wire

variable {fs : List (String × Json)}

theorem lookup_of_mem (h : (fs.map (·.1)).Nodup) {f : String × Json} (hf : f ∈ fs) :
    Json.lookup f.1 fs = some f.2 := by
  induction fs with
  | nil => exact absurd hf List.not_mem_nil
  | cons f' fs ih =>
    rw [List.map_cons, List.nodup_cons] at h
    rcases List.mem_cons.1 hf with rfl | later
    · simp [Json.lookup]
    · have other : f'.1 ≠ f.1 := fun same => h.1 (same ▸ List.mem_map_of_mem later)
      simpa [Json.lookup, other] using ih h.2 later

/-- A record whose fields have names of their own is read in the order in which it was written. -/
theorem fields_object {names : List String} (h : fs.map (·.1) = names) (distinct : names.Nodup) :
    fields? names (.object fs) = some (fs.map (·.2)) := by
  subst h
  have once : ((fs.map (·.1)).all fun k => fs.countP (·.1 == k) == 1) = true := by
    rw [List.all_eq_true]
    intro k hk
    have count : fs.countP (·.1 == k) = (fs.map (·.1)).count k := by
      rw [List.count, List.countP_map]
      rfl
    rw [count, beq_iff_eq]
    exact distinct.count.trans (if_pos hk)
  rw [fields?, if_pos once]
  exact Json.mapM_map_some fun f hf => lookup_of_mem distinct hf

@[simp] theorem text_text (s : String) : text? (.text s) = some s := rfl

@[simp] theorem nat_nat (n : Nat) : nat? (.nat n) = some n := rfl

@[simp] theorem bool_bool (b : Bool) : bool? (.bool b) = some b := rfl

theorem list_map {α : Type} {write : α → Json} {read : Json → Option α} {xs : List α}
    (h : ∀ x ∈ xs, read (write x) = some x) : list? read (.list (xs.map write)) = some xs := by
  rw [list?, Json.mapM_map_some (f := id) h, List.map_id]

end Wire

theorem LogKind.word_read (k : LogKind) : Wire.word? LogKind.ofWord? (.text k.word) = some k := by
  cases k <;> rfl

theorem RunStatus.word_read (s : RunStatus) : Wire.word? RunStatus.ofWord? (.text s.word) = some s := by
  cases s <;> rfl

namespace LogEntry

theorem plain_toJson (e : LogEntry) : Plain e.toJson := by
  refine .list fun j hj => ?_
  rcases List.mem_cons.1 hj with rfl | hj
  · exact .text _
  · rw [List.mem_singleton.1 hj]
    exact .text _

theorem ofJson_toJson (e : LogEntry) : ofJson? e.toJson = some e := by
  simp [toJson, ofJson?, LogKind.word_read]

theorem render_toJson (e : LogEntry) : e.toJson.render.toList =
    '[' :: (Json.quote e.kind.word ++ ',' :: (Json.quote e.message ++ [']'])) := by
  simp [Json.render, toJson, Json.compact, Json.compactItems]

end LogEntry

namespace Subtest

/-- The counts fit into 64 bits. -/
def Fits (s : Subtest) : Prop := s.passed < 2 ^ 64 ∧ s.failed < 2 ^ 64

variable {s : Subtest}

theorem plain_toJson (h : s.Fits) : Plain s.toJson := by
  refine .object ?_
  simp only [List.forall_mem_cons, List.not_mem_nil, false_implies, implies_true, and_true]
  refine ⟨.text _, .nat h.1, .nat h.2, .list fun j hj => ?_, .bool _⟩
  obtain ⟨message, _, rfl⟩ := List.mem_map.1 hj
  exact .text message

theorem ofJson_toJson (s : Subtest) : ofJson? s.toJson = some s := by
  have failures : Wire.list? Wire.text? (.list (s.failures.map .text)) = some s.failures :=
    Wire.list_map fun _ _ => rfl
  rw [ofJson?, toJson, Wire.fields_object (by rfl) (by decide)]
  simp [failures]

end Subtest

namespace RunReport

/-- The counts fit into 64 bits, and the start is an instant that can be kept. -/
structure Fits (r : RunReport) : Prop where
  passed : r.passed < 2 ^ 64
  failed : r.failed < 2 ^ 64
  subtests : ∀ s ∈ r.subtests, s.Fits
  startedAt : r.startedAt.valid = true
  durationMs : r.durationMs < 2 ^ 64

/-- The report with the start that its text names. -/
def settled (r : RunReport) : RunReport := { r with startedAt := r.startedAt.settled }

variable {r : RunReport}

theorem settled_eq_iff : r.settled = r ↔ r.startedAt.regular = true := by
  rw [← Timestamp.settled_eq_iff]
  exact ⟨congrArg RunReport.startedAt, fun same => by rw [settled, same]⟩

theorem plain_toJson (h : r.Fits) : Plain r.toJson := by
  refine .object ?_
  simp only [List.forall_mem_cons, List.not_mem_nil, false_implies, implies_true, and_true]
  refine ⟨.text _, .text _, .nat h.passed, .nat h.failed, .list fun j hj => ?_, .list fun j hj => ?_,
    .text _, .nat h.durationMs⟩
  · obtain ⟨s, hs, rfl⟩ := List.mem_map.1 hj
    exact Subtest.plain_toJson (h.subtests s hs)
  · obtain ⟨e, _, rfl⟩ := List.mem_map.1 hj
    exact e.plain_toJson

theorem ofJson_toJson (h : r.Fits) : ofJson? r.toJson = some r.settled := by
  have subtests : Wire.list? Subtest.ofJson? (.list (r.subtests.map Subtest.toJson)) = some r.subtests :=
    Wire.list_map fun s _ => s.ofJson_toJson
  have logs : Wire.list? LogEntry.ofJson? (.list (r.logs.map LogEntry.toJson)) = some r.logs :=
    Wire.list_map fun e _ => e.ofJson_toJson
  have start := Timestamp.parse_text h.startedAt
  rw [ofJson?, toJson, Wire.fields_object (by rfl) (by decide)]
  simp [subtests, logs, start, RunStatus.word_read, settled]

end RunReport

namespace SuiteReport

/-- The counts fit into 64 bits, those of the results too. -/
structure Fits (s : SuiteReport) : Prop where
  total : s.total < 2 ^ 64
  passed : s.passed < 2 ^ 64
  failed : s.failed < 2 ^ 64
  durationMs : s.durationMs < 2 ^ 64
  results : ∀ r ∈ s.results, r.Fits

/-- The suite with the starts that its text names. -/
def settled (s : SuiteReport) : SuiteReport := { s with results := s.results.map RunReport.settled }

variable {s : SuiteReport}

theorem settled_eq_iff : s.settled = s ↔ ∀ r ∈ s.results, r.startedAt.regular = true := by
  have results : s.settled = s ↔ s.results.map RunReport.settled = s.results :=
    ⟨congrArg SuiteReport.results, fun same => by rw [settled, same]⟩
  rw [results]
  refine ⟨fun same r hr => RunReport.settled_eq_iff.1 ?_, fun regular => ?_⟩
  · exact List.map_inj_left.1 (same.trans (List.map_id _).symm) r hr
  · rw [List.map_congr_left fun r hr => RunReport.settled_eq_iff.2 (regular r hr), List.map_id']

theorem plain_toJson (h : s.Fits) : Plain s.toJson := by
  refine .object ?_
  simp only [List.forall_mem_cons, List.not_mem_nil, false_implies, implies_true, and_true]
  refine ⟨.nat h.total, .nat h.passed, .nat h.failed, .nat h.durationMs, .list fun j hj => ?_⟩
  obtain ⟨r, hr, rfl⟩ := List.mem_map.1 hj
  exact RunReport.plain_toJson (h.results r hr)

theorem ofJson_toJson (h : s.Fits) : ofJson? s.toJson = some s.settled := by
  have results : Wire.list? RunReport.ofJson? (.list (s.results.map RunReport.toJson)) =
      some (s.results.map RunReport.settled) := by
    rw [Wire.list?, Json.mapM_map_some fun r hr => RunReport.ofJson_toJson (h.results r hr)]
  rw [ofJson?, toJson, Wire.fields_object (by rfl) (by decide)]
  simp [results, settled]

theorem parse_fileText (h : s.Fits) : (Json.parse? s.fileText).bind ofJson? = some s.settled := by
  rw [fileText, Json.parse_pretty (plain_toJson h), Option.bind_some, ofJson_toJson h]

end SuiteReport

/-- A results file holds its suite: reading it gives every field back, but for the starts of runs in seconds
that ran on before the end of their minute, each of which comes back as its second's next one. So does reading
the text of a single report, or of an entry, which is a list of two texts. -/
theorem reports_read_back :
    (∀ s : SuiteReport, s.Fits → ∃ s', (Json.parse? s.fileText).bind SuiteReport.ofJson? = some s' ∧
      s' = s.settled ∧ s'.success = s.success ∧
      (s' = s ↔ ∀ r ∈ s.results, r.startedAt.regular = true)) ∧
    (∀ r : RunReport, r.Fits → ∀ text, text = r.toJson.render ∨ text = r.toJson.pretty →
      ∃ r', (Json.parse? text).bind RunReport.ofJson? = some r' ∧ r' = r.settled ∧
        (r' = r ↔ r.startedAt.regular = true)) ∧
    ∀ e : LogEntry,
      e.toJson.render.toList =
        '[' :: (Json.quote e.kind.word ++ ',' :: (Json.quote e.message ++ [']'])) ∧
      ∀ text, text = e.toJson.render ∨ text = e.toJson.pretty →
        (Json.parse? text).bind LogEntry.ofJson? = some e := by
  refine ⟨fun s h => ⟨s.settled, SuiteReport.parse_fileText h, rfl, rfl, SuiteReport.settled_eq_iff⟩,
    fun r h text written => ⟨r.settled, ?_, rfl, RunReport.settled_eq_iff⟩,
    fun e => ⟨e.render_toJson, fun text written => ?_⟩⟩
  · have plain := RunReport.plain_toJson h
    rcases written with rfl | rfl
    · rw [Json.parse_render plain, Option.bind_some, RunReport.ofJson_toJson h]
    · rw [Json.parse_pretty plain, Option.bind_some, RunReport.ofJson_toJson h]
  · rcases written with rfl | rfl
    · rw [Json.parse_render e.plain_toJson, Option.bind_some, e.ofJson_toJson]
    · rw [Json.parse_pretty e.plain_toJson, Option.bind_some, e.ofJson_toJson]

namespace Demo

/-- A run in a leap second, with texts that need escapes, and one far in the future. -/
def awkward : SuiteReport := .ofResults
  [⟨"\"a\\b\"\n\x01", .failed, 0, 1, [⟨"", 0, 1, ["\t\x7f😀"], true⟩],
      [⟨.testStart, ""⟩, ⟨.fail, "\t\x7f😀"⟩], ⟨1483228799, 1500000000⟩, 2 ^ 64 - 1⟩,
    ⟨"", .timedOut, 0, 0, [], [], ⟨8210266876799, 999999999⟩, 0⟩] 7

theorem awkward_fits : awkward.Fits where
  total := by decide
  passed := by decide
  failed := by decide
  durationMs := by decide
  results r hr := by
    simp only [awkward, SuiteReport.ofResults, List.mem_cons, List.not_mem_nil, or_false] at hr
    rcases hr with rfl | rfl
    · refine ⟨by decide, by decide, fun s hs => ?_, by decide, by decide⟩
      obtain rfl := List.mem_singleton.1 hs
      exact ⟨by decide, by decide⟩
    · exact ⟨by decide, by decide, fun s hs => absurd hs List.not_mem_nil, by decide, by decide⟩

/-- A run that starts in the fourth second of a minute while that second runs on. -/
def overrun : RunReport := ⟨"", .passed, 0, 0, [], [], ⟨1704153364, 1333333333⟩, 0⟩

theorem overrun_fits : overrun.Fits :=
  ⟨by decide, by decide, fun s hs => absurd hs List.not_mem_nil, by decide, by decide⟩

theorem reports_read_back_awkward :
    (awkward.Fits ∧ (Json.parse? awkward.fileText).bind SuiteReport.ofJson? = some awkward) ∧
    overrun.Fits ∧ ∃ r, (Json.parse? overrun.toJson.pretty).bind RunReport.ofJson? = some r ∧
      r.startedAt = ⟨1704153365, 333333333⟩ := by
  refine ⟨⟨awkward_fits, ?_⟩, overrun_fits, ?_⟩
  · obtain ⟨s, read, -, -, same⟩ := reports_read_back.1 awkward awkward_fits
    rwa [same.2 (by decide)] at read
  · obtain ⟨r, read, rfl, -⟩ := reports_read_back.2.1 overrun overrun_fits _ (.inr rfl)
    exact ⟨_, read, rfl⟩

/-- Two starts with one text: a suite with the one is read back as that with the other. -/
theorem reports_read_back_not_all :
    (SuiteReport.ofResults [overrun] 0).Fits ∧
    overrun.startedAt.text = "2024-01-01T23:56:05.333333333Z" ∧
    (Json.parse? (SuiteReport.ofResults [overrun] 0).fileText).bind SuiteReport.ofJson? ≠
      some (SuiteReport.ofResults [overrun] 0) := by
  have fits : (SuiteReport.ofResults [overrun] 0).Fits := by
    refine ⟨by decide, by decide, by decide, by decide, fun r hr => ?_⟩
    rw [List.mem_singleton.1 hr]
    exact overrun_fits
  refine ⟨fits, by decide +kernel, ?_⟩
  rw [SuiteReport.parse_fileText fits]
  decide

end Demo

end PageTest
