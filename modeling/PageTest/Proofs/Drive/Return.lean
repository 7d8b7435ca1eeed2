import PageTest.Proofs.Drive.Launch
import PageTest.Proofs.Load.Grammar

/-! What a driver has seen of its load when it is back. -/

namespace PageTest

namespace Code

/-- Scripts and bodies may do anything but drain the log and drive; of the log entries that they
append themselves only some kinds are allowed. Tasks of their own leave the log alone. -/
def writing (appends : LogKind → Bool) : Code where
  body := ⟨true, appends, false, false, true, true, true, true, true⟩
  task := ⟨false, fun _ => false, false, false, false, false, true, true, true⟩
  drives_body := rfl
  loads_drives := id
  speaks_task := rfl
  appends_task _ := rfl
  runs_task := rfl

theorem mute_writing (appends : LogKind → Bool) : (writing appends).Mute := ⟨rfl, rfl, rfl, rfl⟩

end Code

namespace Ran

variable {r : Ran} {p : String}

theorem mem_log {e : LogEntry} (h : e ∈ r.log) : e ∈ r.said ∨
    e.kind ∈ [.subtest, .info, .fail, .stack] := by
  simp only [log, List.mem_cons, List.mem_append] at h
  rcases h with rfl | rfl | h | h
  · exact .inr (by simp)
  · exact .inr (by simp)
  · exact .inl h
  · refine .inr ?_
    unfold closing at h
    split at h
    · simp at h
    · simp at h; simp [h]
    · simp [failed] at h; rcases h with rfl | rfl <;> simp
    · simp [failed] at h; rcases h with rfl | rfl <;> simp

theorem marker_not_mem (h : endMarker p ∉ r.said) : endMarker p ∉ r.log := by
  intro hm
  rcases mem_log hm with h1 | h1
  · exact h h1
  · simp [endMarker] at h1

end Ran

namespace Over

variable {su : Setup} {c : Code} {p : String} {s : Story} {o : Outcome}

/-- If nobody else writes the end marker, nothing comes after it. -/
theorem marker_last (h : Over su c p s o) (hr : endMarker p ∉ s.registered)
    (hs : ∀ r ∈ s.ran, endMarker p ∉ r.said) :
    ∃ init, endMarker p ∉ init ∧ (s.log = init ∨ s.log = init ++ [endMarker p]) := by
  have hran (ran : List Ran) (hs : ∀ r ∈ ran, endMarker p ∉ r.said) : endMarker p ∉ ran.reverse.flatMap Ran.log := by
    intro hm
    obtain ⟨r, hr, he⟩ := List.mem_flatMap.1 hm
    exact Ran.marker_not_mem (hs r (by simpa using hr)) he
  cases h with
  | rejected => exact ⟨_, by simp [Story.log, Story.blank, endMarker], .inl rfl⟩
  | unknown => exact ⟨_, by simp [Story.log, Story.begun, Story.blank, endMarker], .inl rfl⟩
  | died => exact ⟨_, by simp [Story.log, Story.begun, Story.blank, endMarker], .inl rfl⟩
  | @unregistered s k o reason hop hnil ho he =>
    refine ⟨_, ?_, .inl rfl⟩
    simp only [Story.log, hnil, hop.opening]
    simpa [endMarker] using hr
  | @refused s k hop hnil =>
    refine ⟨s.opening ++ s.registered ++ [⟨.fail, RegistryError.alreadyRunning.message⟩], ?_,
      .inr ?_⟩
    · rw [hop.opening]
      simpa [endMarker] using hr
    · simp [Story.log, hnil, endMarker]
  | @ended s k st hop hl hc =>
    refine ⟨s.opening ++ s.registered ++ s.ran.reverse.flatMap Ran.log, ?_, .inr rfl⟩
    have := hran s.ran hs
    rw [hop.opening]
    simp only [List.mem_append, List.mem_singleton, not_or]
    exact ⟨⟨by simp [endMarker], hr⟩, this⟩

end Over

/-- What follows an entry that is only ever the last one. -/
theorem rest_nil_of_last {α : Type} {e : α} {init front rest : List α} (hi : e ∉ init)
    (he : e ∈ front) (h : front ++ rest = init ∨ front ++ rest = init ++ [e]) : rest = [] := by
  rcases h with h | h
  · exact absurd (h ▸ List.mem_append_left rest he) hi
  · rcases List.eq_nil_or_concat rest with rfl | ⟨rest', x, rfl⟩
    · rfl
    · rw [List.concat_eq_append, ← List.append_assoc] at h
      have := (List.append_inj' h rfl).1
      exact absurd (this ▸ List.mem_append_left rest' he) hi

variable {su : Setup} {c : Code} {p : String} {s : Story} {a : Activity} {k : Core}

theorem LoadTask.over (h : LoadTask su c p s a k) (he : a.ended = some .done) :
    ∃ o, Over su c p s o ∧ World.reportOf o = .done := by
  cases h with
  | live _ he' => simp [he] at he'
  | left _ _ he' => simp [he] at he'
  | cancelled _ he' => simp [he] at he'
  | @ended o _ he' ho => exact ⟨o, ho, (Option.some.inj (he.symm.trans he')).symm⟩

theorem LoadTask.stack_nil (h : LoadTask su c p s a k) (he : a.ended.isSome = true) :
    a.stack = [] := by
  cases h with
  | live _ he' => simp [he'] at he
  | left hs => exact hs
  | ended hs => exact hs
  | cancelled hs => exact hs

/-- Bodies never write an entry that could be taken for the end of their load. -/
def Code.Unmarked (c : Code) : Prop := ∀ k kind, c.Voices (.within k) kind → kind ≠ .testEnd

/-- A driver that watched a load that leaves the end marker alone returns all that waited when it
began and all that the load wrote, unless the loader panicked. -/
theorem Returned.all {D L t₀ : Nat} {stale : List LogEntry} {acts : List Act} {w : World} {o : Outcome}
    (hu : c.Unmarked) (hst : Stage su c p D L acts w a) (h : Returned su p L stale t₀ acts w a o)
    (hm : endMarker p ∉ stale) (ho : o ≠ .fault .loadPanicked) :
    ∃ timedOut, o = .value (.report
        (.ofLogs p (stale ++ said L acts) timedOut (su.timeAt t₀) (w.now - t₀))) ∧
      (timedOut = true → endMarker p ∉ stale ++ said L acts) ∧ w.log.waiting = [] ∧
      a.ended.isSome = true := by
  cases h with
  | joined he hw => exact ⟨false, rfl, by simp, hw, by simp [he]⟩
  | stopped he hw hm' => exact ⟨true, rfl, fun _ => hm', hw, he⟩
  | broken => exact absurd rfl ho
  | settled logs he hlogs hmem hpre =>
    obtain ⟨own, rfl⟩ := hpre
    have hown : endMarker p ∈ own := by simpa [hm] using hmem
    rw [List.append_assoc] at hlogs
    replace hlogs := List.append_cancel_left hlogs
    obtain ⟨o, ho, -⟩ := hst.task.over he
    obtain ⟨hreg, hsaid⟩ := ho.voices
    have hmark : ∀ {es : List LogEntry}, (∀ e ∈ es, ∃ k, c.Voices (.within k) e.kind) →
        endMarker p ∉ es := by
      intro es hes hmem
      obtain ⟨k, hk⟩ := hes _ hmem
      exact hu k _ hk rfl
    obtain ⟨init, hi, hlog⟩ := ho.marker_last (hmark hreg) fun r hr => hmark (hsaid r hr)
    rw [hst.told, ← hlogs] at hlog
    have hnil := rest_nil_of_last hi hown hlog
    exact ⟨false, by rw [← hlogs, hnil, List.append_nil], by simp, hnil, by simp [he]⟩

/-- A driver that began with an empty log and watched a load that leaves the end marker alone
returns all that the load wrote. -/
theorem Returned.whole {D L t₀ : Nat} {acts : List Act} {w : World} {o : Outcome} (hu : c.Unmarked)
    (hst : Stage su c p D L acts w a) (h : Returned su p L [] t₀ acts w a o)
    (hp : su.loader.panicOn ≠ some p ∨ a.ended = some .done) :
    ∃ timedOut, o = .value (.report (.ofLogs p (said L acts) timedOut (su.timeAt t₀) (w.now - t₀))) ∧
      (timedOut = true → endMarker p ∉ said L acts) ∧ w.log.waiting = [] ∧
      a.ended.isSome = true := by
  refine h.all hu hst (by simp) ?_
  rintro rfl
  cases h with
  | broken he hp' =>
    rcases hp with h1 | h1
    · exact h1 hp'
    · simp [he] at h1

end PageTest
