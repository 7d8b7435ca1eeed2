import PageTest.Proofs.Machine.Strokes
import PageTest.Proofs.Machine.Turn

/-! Whatever a frame does, it leaves what other tasks are in the middle of alone; so a task that has
ended is never heard of again. Nothing is assumed about what any task does. -/

namespace PageTest

/-- All tasks go on as they were, but that they may have been asked to end. -/
structure Apart (k k' : Core) : Prop where
  running : k'.running = k.running
  tasks : ∀ (i : Nat) (a : Activity), k.tasks[i]? = some a → ∃ a', k'.tasks[i]? = some a' ∧
    Untouched True a a'
  handles : ∀ i, some i ∈ k'.handles → some i ∈ k.handles ∨ i < k'.tasks.length

variable {su : Setup} {w v : World} {k k' k'' : Core}

namespace Apart

theorem length_le (h : Apart k k') : k.tasks.length ≤ k'.tasks.length := by
  by_contra hl
  have hlt : k'.tasks.length < k.tasks.length := by omega
  obtain ⟨a', ha', -⟩ := h.tasks k'.tasks.length _ (List.getElem?_eq_getElem hlt)
  simp at ha'

theorem of_tasks (hr : k'.running = k.running) (h : k'.tasks = k.tasks)
    (hh : k'.handles = k.handles) : Apart k k' where
  running := hr
  tasks i a ha := ⟨a, by rw [h, ha], .refl a⟩
  handles i hi := .inl (hh ▸ hi)

theorem trans (h : Apart k k') (h' : Apart k' k'') : Apart k k'' where
  running := h'.running.trans h.running
  tasks i a ha := by
    obtain ⟨b, hb, hu⟩ := h.tasks i a ha
    obtain ⟨d, hd, hu'⟩ := h'.tasks i b hb
    exact ⟨d, hd, hu.trans hu' fun _ => trivial⟩
  handles i hi := by
    have := h'.length_le
    rcases h'.handles i hi with h1 | h1
    · exact (h.handles i h1).imp_right fun h2 => by omega
    · exact .inr h1

theorem of_spawn {sts : List (List Frame)} (hr : k'.running = k.running)
    (h : k'.tasks = (k.spawn sts).tasks) (hh : k'.handles = k.handles) : Apart k k' where
  running := hr
  tasks i a ha := ⟨a, by rw [h, Core.spawn, List.getElem?_append_left (lt_of_getElem? ha), ha],
    .refl a⟩
  handles i hi := .inl (hh ▸ hi)

theorem of_cancel {t : Nat} (hr : k'.running = k.running) (h : k'.tasks = k.tasks.modify t fun a =>
    if a.ended.isSome then a else { a with cancelled := true }) (hh : k'.handles = k.handles) : Apart k k' where
  running := hr
  tasks i a ha := by
    rw [h]
    by_cases hi : t = i
    · subst hi
      refine ⟨if a.ended.isSome then a else { a with cancelled := true }, by simp [ha], ?_⟩
      split_ifs
      · exact .refl a
      · exact ⟨rfl, rfl, rfl, fun _ => rfl, .inr trivial⟩
    · exact ⟨a, by simp [hi, ha], .refl a⟩
  handles i hi := .inl (hh ▸ hi)

/-- A handle is given out with the task it is for. -/
theorem hand_out (st : List Frame) :
    Apart k { k.spawn [st] with handles := k.handles ++ [some k.tasks.length] } where
  running := rfl
  tasks := (of_spawn rfl rfl rfl : Apart k (k.spawn [st])).tasks
  handles i hi := by
    rcases List.mem_append.1 hi with h | h
    · exact .inl h
    · obtain rfl : i = k.tasks.length := by simpa using h
      exact .inr (by simp [Core.spawn])

theorem take_back (i : Nat) : Apart k { k with handles := k.handles.set i none } where
  running := rfl
  tasks i a ha := ⟨a, ha, .refl a⟩
  handles j hj := by
    rcases List.mem_or_eq_of_mem_set hj with h | h
    · exact .inl h
    · simp at h

end Apart

theorem World.apart_cancel (w : World) (t : Nat) : Apart w.core (w.cancel t).core :=
  .of_cancel (by rw [core_cancel]) (by rw [core_cancel]) (by rw [core_cancel])

section

variable {self : Nat} {known : Nat → Prop} {σ : List Signal}

theorem Stroke.apart (h : Stroke self known w σ v) : Apart w.core v.core := by
  cases h with
  | still h =>
    have htasks : v.tasks = w.tasks := congrArg Rota.tasks h
    exact .of_tasks (show v.running = w.running from congrArg Rota.running h)
      (by simp only [World.core, htasks]) (show v.handles = w.handles from congrArg Rota.handles h)
  | leaveLock ticket => exact World.core_leaveLock w ticket ▸ .of_tasks rfl rfl rfl
  | @page _ s _ =>
    obtain ⟨sts, -, hc⟩ := World.core_withScene w s
    exact .of_spawn (by rw [hc]; rfl) (by rw [hc]) (by rw [hc]; rfl)
  | listen => exact .of_tasks rfl rfl rfl
  | load path => exact World.core_start w _ ▸ .of_spawn rfl rfl rfl
  | spawn body after =>
    rw [World.core_spawn, ← World.length_core]
    exact .hand_out _
  | takeBack i => exact .take_back i
  | cancel _ => exact World.apart_cancel w _
  | waitFor _ => exact World.core_waitFor w self _ ▸ .of_tasks rfl rfl rfl
  | standBack => exact .of_tasks rfl rfl rfl
  | clearTimer => exact .of_tasks rfl rfl rfl
  | setTimer _ => exact .of_tasks rfl rfl rfl

theorem Strokes.apart (h : Strokes self known w σ v) : Apart w.core v.core := by
  induction h with
  | one h => exact h.apart
  | more _ h ih => exact ih.trans h.apart

end

theorem World.apart_begin (su : Setup) (found : List Nat) (w : World) (s : Step) :
    Apart w.core (w.begin su found s).1.core :=
  (strokes_begin su 0 (fun _ => True) found w s fun _ _ => trivial).1.apart

theorem Frame.apart_act (su : Setup) (w : World) (self : Nat) (f : Frame) (ret : Option Outcome) :
    Apart w.core (f.act su w self ret).1.core := (f.strikes_act su w self ret).strokes.apart

/-- A task that has ended and does not have its turn. -/
def World.Ended (w : World) (t : Nat) : Prop :=
  t ≠ 0 ∧ w.running ≠ some t ∧ ∃ a, w.core.tasks[t]? = some a ∧ a.ended.isSome = true

/-- A move of one task, seen by another. -/
theorem World.runTask_other (su : Setup) {t i : Nat} {a : Activity} (hi : i ≠ t)
    (ha : w.core.tasks[i]? = some a) : ∃ a', (w.runTask su t).core.tasks[i]? = some a' ∧
    Untouched True a a' := by
  cases hb : w.core.tasks[t]? with
  | none => exact ⟨a, by rw [core_runTask_none su hb]; exact ha, .refl a⟩
  | some b =>
    cases hs : b.stack with
    | nil =>
      refine ⟨a, ?_, .refl a⟩
      rw [core_runTask_nil su hb hs]
      dsimp only
      split_ifs
      · exact ha
      · simp [hi.symm, ha]
    | cons f rest =>
      obtain ⟨a', ha', hu⟩ := (f.apart_act su w t b.returned).tasks i a ha
      exact ⟨a', by rw [core_runTask su hb hs, Core.settle_other hi, ha'], hu⟩

theorem World.running_runTask {t : Nat} (hr : w.running = some t) (i : Nat) (hi : i ≠ t) :
    (w.runTask su t).running ≠ some i := by
  suffices h : (w.runTask su t).core.running = none ∨ (w.runTask su t).core.running = some t by
    rcases h with h | h
    · exact fun hr' => by simp [show (w.runTask su t).running = none from h] at hr'
    · exact fun hr' => hi (Option.some.inj (hr'.symm.trans h))
  cases hb : w.core.tasks[t]? with
  | none => exact .inl (by rw [core_runTask_none su hb])
  | some b =>
    cases hs : b.stack with
    | nil => exact .inl (by rw [core_runTask_nil su hb hs])
    | cons f rest =>
      rw [core_runTask su hb hs, Core.settle_running]
      split_ifs
      · exact .inl rfl
      · exact .inr ((f.apart_act su w t b.returned).running.trans hr)

theorem Next.ended {may : Nat → Prop} {m : Option Nat} {w' : World} {t : Nat}
    (hn : Next su may w m w') (h : w.Ended t) : m ≠ some t ∧ w'.Ended t := by
  obtain ⟨h0, hr, a, ha, he⟩ := h
  cases hn with
  | @move t' hr' =>
    have hne : t ≠ t' := fun heq => hr (heq ▸ hr')
    obtain ⟨a', ha', hu⟩ := World.runTask_other su hne ha
    exact ⟨fun heq => hne (Option.some.inj heq).symm, h0, World.running_runTask hr' t hne, a',
      ha', by rw [hu.ended]; exact he⟩
  | rest _ hl hable =>
    refine ⟨by simp, h0, fun hr' => ?_, a, by rw [hl.core]; exact ha, he⟩
    rcases hable t hr' with h1 | ⟨b, hb, h1, -⟩
    · exact h0 h1
    · obtain rfl := Option.some.inj (ha.symm.trans hb)
      simp [h1] at he
  | @drop v t' _ hl hvr hd =>
    obtain ⟨b, hb, hb', -⟩ := hd
    have hne : t' ≠ t := by
      rintro rfl
      obtain rfl := Option.some.inj (ha.symm.trans hb)
      simp [hb'] at he
    have hcore := World.core_cancelNow v t'
    rw [hl.core, hvr] at hcore
    refine ⟨by simp, h0, ?_, a, ?_, he⟩
    · rw [show (v.cancelNow t').running = none from congrArg Core.running hcore]
      simp
    · rw [hcore]
      simp [Core.cancelNow, hne, ha]
  | @abort t' hr' _ =>
    obtain ⟨a', ha', hu⟩ := (w.apart_cancel t').tasks t a ha
    refine ⟨by simp, h0, ?_, a', ha', by rw [hu.ended]; exact he⟩
    rw [show (w.cancel t').running = w.running from congrArg Core.running (World.core_cancel w t')]
    exact hr

/-- A task that has ended is never heard of again. -/
theorem Run.ended {may : Nat → Prop} {w' : World} {acts : List Act} {t : Nat}
    (hr : Run su may w acts w') (h : w.Ended t) : said t acts = [] ∧ w'.Ended t := by
  induction hr with
  | start => exact ⟨rfl, h⟩
  | step _ hn ih =>
    obtain ⟨hs, he⟩ := ih
    obtain ⟨hm, he'⟩ := hn.ended he
    exact ⟨by simp [hs, said_singleton, hm], he'⟩

/-! Tasks and handles -/

/-- All handles are for tasks that were started. -/
def World.Tabled (w : World) : Prop := ∀ i, some i ∈ w.handles → i < w.tasks.length

theorem World.table_runTask (w : World) (t : Nat) : w.tasks.length ≤ (w.runTask su t).tasks.length ∧
    ∀ i, some i ∈ (w.runTask su t).handles → some i ∈ w.handles ∨
    i < (w.runTask su t).tasks.length := by
  suffices h : w.core.tasks.length ≤ (w.runTask su t).core.tasks.length ∧
    ∀ i, some i ∈ (w.runTask su t).core.handles →
      some i ∈ w.core.handles ∨ i < (w.runTask su t).core.tasks.length by
    rw [length_core, length_core] at h
    exact h
  cases hb : w.core.tasks[t]? with
  | none => rw [core_runTask_none su hb]; exact ⟨le_rfl, fun i => .inl⟩
  | some b =>
    cases hs : b.stack with
    | nil =>
      rw [core_runTask_nil su hb hs]
      refine ⟨?_, fun i => .inl⟩
      dsimp only
      split_ifs <;> simp
    | cons f rest =>
      have h := f.apart_act su w t b.returned
      rw [core_runTask su hb hs, Core.length_settle, Core.settle_handles]
      exact ⟨h.length_le, h.handles⟩

theorem Next.table {may : Nat → Prop} {m : Option Nat} {w' : World} (hn : Next su may w m w') :
    w.tasks.length ≤ w'.tasks.length ∧ ∀ i, some i ∈ w'.handles → some i ∈ w.handles ∨
    i < w'.tasks.length := by
  have same {v : World} (h1 : v.core.tasks.length = w.core.tasks.length) (h2 : v.core.handles = w.core.handles) :
      w.tasks.length ≤ v.tasks.length ∧ ∀ i, some i ∈ v.handles → some i ∈ w.handles ∨
      i < v.tasks.length := by
    rw [World.length_core, World.length_core] at h1
    exact ⟨h1.ge, fun i hi => .inl ((show v.handles = w.handles from h2) ▸ hi)⟩
  cases hn with
  | move _ => exact w.table_runTask _
  | rest _ hl _ => exact same (by rw [hl.core]) (by rw [hl.core])
  | @drop v t _ hl _ _ =>
    have hcore := World.core_cancelNow v t
    rw [hl.core] at hcore
    exact same (by rw [hcore]; simp [Core.cancelNow]) (by rw [hcore]; rfl)
  | @abort t _ _ => exact same (by rw [World.core_cancel]; simp) (by rw [World.core_cancel])

theorem Next.tabled {may : Nat → Prop} {m : Option Nat} {w' : World} (hn : Next su may w m w')
    (h : w.Tabled) : w'.Tabled := by
  intro i hi
  rcases hn.table.2 i hi with h1 | h1
  · exact (h i h1).trans_le hn.table.1
  · exact h1

end PageTest
