import PageTest.Proofs.Machine.Aside
import PageTest.Proofs.Machine.Apart
import PageTest.Proofs.Runs.Stride

/-! What one step of a session does to the registry and to the run passes in progress, under any
scheduler and whoever is given up. A registry stays closed without a pass only where a task was given
up in the middle of one. -/

namespace PageTest

variable {su : Setup} {w : World} {f : Frame} {m : Move}

/-- Whatever waits for the frames above it can wait. -/
def World.Seated (w : World) : Prop := ∀ a ∈ w.core.tasks, Shaped a.stack a.returned

/-- A task is given up in the middle of a run pass. -/
structure World.Cuts (w w' : World) (t : Nat) : Prop where
  pass : ∃ a, w.core.tasks[t]? = some a ∧ 0 < passes a.stack
  gone : ∃ a, w'.core.tasks[t]? = some a ∧ a.stack = [] ∧ a.ended = some .cancelled

/-- What one step does to the registry and to the run passes in progress. -/
inductive Sway (w w' : World) : Prop
  | keep : w'.registry.state = w.registry.state → passes w'.frames ≤ passes w.frames →
      (passes w'.frames < passes w.frames → ∃ t, w.Cuts w' t) → Sway w w'
  | begin : w.registry.state ≠ .running → w'.registry.state = .running → 0 < passes w'.frames → Sway w w'
  | finish : 0 < passes w.frames → w'.registry.state ≠ .running → Sway w w'
  | reset : w'.registry = .empty → Sway w w'

section Stacks

variable {ts ts' : List Activity} {t : Nat} {a : Activity}

theorem framesOf_congr (h : ts'.map (·.stack) = ts.map (·.stack)) : framesOf ts' = framesOf ts := by
  simp only [framesOf, List.flatMap_def, h]

theorem framesOf_append : framesOf (ts ++ ts') = framesOf ts ++ framesOf ts' := List.flatMap_append

theorem passes_framesOf_cons : passes (framesOf (a :: ts)) = passes a.stack + passes (framesOf ts) :=
  passes_append

/-- One task changes what it is in the middle of. -/
theorem passes_modify (ha : ts[t]? = some a) (g : Activity → Activity) :
    passes (framesOf (ts.modify t g)) + passes a.stack = passes (framesOf ts) + passes (g a).stack := by
  obtain ⟨hlt, rfl⟩ := List.getElem?_eq_some_iff.1 ha
  have hold : passes (framesOf ts) = passes (framesOf (ts.take t)) +
      (passes ts[t].stack + passes (framesOf (ts.drop (t + 1)))) := by
    conv_lhs => rw [← List.take_append_drop t ts, List.drop_eq_getElem_cons hlt]
    rw [framesOf_append, passes_append, passes_framesOf_cons]
  have hnew : passes (framesOf (ts.modify t g)) = passes (framesOf (ts.take t)) +
      (passes (g ts[t]).stack + passes (framesOf (ts.drop (t + 1)))) := by
    rw [List.modify_eq_take_cons_drop hlt, framesOf_append, passes_append, passes_framesOf_cons]
  omega

theorem passes_framesOf_of_forall (h : ∀ a ∈ ts, passes a.stack = 0) : passes (framesOf ts) = 0 := by
  induction ts with
  | nil => rfl
  | cons a ts ih =>
    rw [passes_framesOf_cons, h a (by simp), ih fun b hb => h b (by simp [hb])]

end Stacks

/-- The tasks that a move leaves beside its own, with those that it starts. -/
theorem passes_of_apart {k k' : Core} (h : Apart k k')
    (hb : ∀ i a, k.tasks.length ≤ i → k'.tasks[i]? = some a → Newborn a) :
    passes (framesOf k'.tasks) = passes (framesOf k.tasks) := by
  have hold : (k'.tasks.take k.tasks.length).map (·.stack) = k.tasks.map (·.stack) := by
    refine List.ext_getElem? fun i => ?_
    rw [List.getElem?_map, List.getElem?_map]
    cases ha : k.tasks[i]? with
    | none =>
      have hi : k.tasks.length ≤ i := List.getElem?_eq_none_iff.1 ha
      rw [List.getElem?_eq_none (by simp; omega)]
    | some a =>
      obtain ⟨a', ha', hu⟩ := h.tasks i a ha
      rw [List.getElem?_take_of_lt (lt_of_getElem? ha), ha']
      exact congrArg some hu.stack
  have hnew : passes (framesOf (k'.tasks.drop k.tasks.length)) = 0 := by
    refine passes_framesOf_of_forall fun a ha => ?_
    obtain ⟨i, hi⟩ := List.mem_iff_getElem?.1 ha
    rw [List.getElem?_drop] at hi
    exact (hb _ a (by omega) hi).passes
  rw [← List.take_append_drop k.tasks.length k'.tasks, framesOf_append, passes_append, hnew,
    framesOf_congr hold, Nat.add_zero]

theorem Core.settle_moved {k : Core} {t : Nat} {a : Activity} {rest : List Frame}
    (ha : k.tasks[t]? = some a) :
    (k.settle t rest m).tasks = k.tasks.modify t (·.moved rest m) := by
  refine List.ext_getElem? fun i => ?_
  by_cases hi : i = t
  · subst hi
    rw [settle_self ha]
    simp [ha]
  · rw [settle_other hi]
    simp [Ne.symm hi]

theorem Activity.moved_shaped {a : Activity} {rest : List Frame} (hm : m.Seated)
    (hs : ∀ g ∈ rest, g.Sits) : Shaped (a.moved rest m).stack (a.moved rest m).returned := by
  by_cases hw : m.waits = true ∧ a.cancelled = true
  · rw [moved_cancelled hw]
    trivial
  · rw [moved_onto hw]
    exact hm.onto hs

section Steps

variable {t : Nat} {a : Activity} {rest : List Frame}

/-- The task that has its turn moves. -/
theorem World.Seated.stride (su : Setup) (h : w.Seated) (ha : w.core.tasks[t]? = some a) (hs : a.stack = f :: rest) :
    Stride w f (f.act su w t a.returned).1 (f.act su w t a.returned).2 ∧ ∀ g ∈ rest, g.Sits := by
  have hshaped : Shaped (f :: rest) a.returned := hs ▸ h a (List.mem_of_getElem? ha)
  refine ⟨f.stride_act su w t a.returned fun hret => ?_, hshaped.2⟩
  simpa [hret] using hshaped.1

theorem World.Seated.runTask (h : w.Seated) : (w.runTask su t).Seated := by
  intro b hb
  obtain ⟨i, hi⟩ := List.mem_iff_getElem?.1 hb
  cases ha : w.core.tasks[t]? with
  | none =>
    rw [core_runTask_none su ha] at hi
    exact h b (List.mem_of_getElem? hi)
  | some a =>
    cases hs : a.stack with
    | nil =>
      rw [core_runTask_nil su ha hs] at hb
      dsimp only at hb
      split_ifs at hb
      · exact h b hb
      · rcases mem_modify ha hb with h1 | rfl
        · exact h b h1
        · trivial
    | cons f rest =>
      obtain ⟨hstride, hrest⟩ := h.stride su ha hs
      have hapart := f.apart_act su w t a.returned
      obtain ⟨a', ha', -⟩ := hapart.tasks t a ha
      rw [core_runTask su ha hs, Core.settle_moved ha'] at hb hi
      by_cases hit : i = t
      · subst hit
        obtain rfl : a'.moved rest _ = b := by simpa [ha'] using hi
        exact Activity.moved_shaped hstride.seated hrest
      · rw [List.getElem?_modify_ne _ _ (Ne.symm hit)] at hi
        rcases Nat.lt_or_ge i w.core.tasks.length with hlt | hge
        · obtain ⟨d, hd, hu⟩ := hapart.tasks i _ (List.getElem?_eq_getElem hlt)
          obtain rfl : b = d := Option.some.inj (hi.symm.trans hd)
          rw [hu.stack, hu.returned]
          exact h _ (List.getElem_mem hlt)
        · exact (hstride.born i b hge hi).shaped

theorem World.passes_stack_le (ha : w.core.tasks[t]? = some a) : passes a.stack ≤ passes w.frames := by
  have h := passes_modify ha fun a => a.put [] none
  rw [framesOf_core] at h
  simp only [Activity.put, show passes [] = 0 from rfl] at h
  omega

/-- One move of the task that has its turn. Only if it waits although it was asked to end can a run
pass be gone after it with the registry as it was. -/
theorem World.Seated.sway_move (h : w.Seated) (ha : w.core.tasks[t]? = some a) (hs : a.stack = f :: rest) :
    Sway w (w.runTask su t) := by
  obtain ⟨⟨hbear, -, hborn⟩, -⟩ := h.stride su ha hs
  have hapart := f.apart_act su w t a.returned
  have hcore := core_runTask su ha hs
  generalize f.act su w t a.returned = p at hbear hborn hapart hcore
  obtain ⟨v, m⟩ := p
  dsimp only at hbear hborn hapart hcore
  obtain ⟨a', ha', hu⟩ := hapart.tasks t a ha
  have hreg : (w.runTask su t).registry = v.registry :=
    (congrArg Core.registry hcore).trans (Core.settle_registry ..)
  have hself : (w.runTask su t).core.tasks[t]? = some (a'.moved rest m) := by
    rw [hcore, Core.settle_self ha']
  have hstack : passes a.stack = passes [f] + passes rest := by rw [hs, passes_cons]
  have hcount : passes (w.runTask su t).frames + passes a.stack =
      passes w.frames + passes (a'.moved rest m).stack := by
    have hmod := passes_modify ha' fun a => a.moved rest m
    rw [passes_of_apart hapart hborn, framesOf_core, hu.stack] at hmod
    rw [← framesOf_core, hcore, Core.settle_moved ha', hmod]
  have hle := w.passes_stack_le ha
  cases hbear with
  | finish hf hst =>
    refine .finish ?_ (hreg ▸ hst)
    have h1 : passes [f] = 1 := by simp [passes, hf]
    omega
  | reset hst => exact .reset (hreg.trans hst)
  | begin h0 h1 hw hp =>
    have hmoved : a'.moved rest m = a'.put (m.onto rest).1 (m.onto rest).2 :=
      Activity.moved_onto (by simp [hw])
    rw [hmoved, Activity.put, Move.onto_frames, passes_append] at hcount
    exact .begin h0 (hreg ▸ h1) (by omega)
  | keep hst hp =>
    by_cases hw : m.waits = true ∧ a'.cancelled = true
    · have hmoved : a'.moved rest m = a'.finish .cancelled := Activity.moved_cancelled hw
      rw [hmoved] at hself hcount
      have hnil : passes (a'.finish .cancelled).stack = 0 := rfl
      refine .keep (hreg ▸ hst) (by omega) fun hlt => ⟨t, ⟨a, ha, by omega⟩, _, hself, rfl, rfl⟩
    · rw [Activity.moved_onto hw, Activity.put, Move.onto_frames, passes_append] at hcount
      exact .keep (hreg ▸ hst) (by omega) fun hlt => absurd hlt (by omega)

/-- The registry and what all tasks are in the middle of are as they were. -/
theorem Sway.of_stacks {w' : World} (hr : w'.registry = w.registry)
    (hs : w'.core.tasks.map (·.stack) = w.core.tasks.map (·.stack)) : Sway w w' := by
  have hf : passes w'.frames = passes w.frames := by
    rw [← World.framesOf_core, ← World.framesOf_core, framesOf_congr hs]
  exact .keep (by rw [hr]) hf.le fun hlt => absurd hlt (by omega)

theorem World.Seated.sway_runTask (h : w.Seated) (t : Nat) : Sway w (w.runTask su t) := by
  cases ha : w.core.tasks[t]? with
  | none =>
    have hcore := core_runTask_none su ha
    exact .of_stacks (congrArg Core.registry hcore) (by rw [hcore])
  | some a =>
    cases hs : a.stack with
    | nil =>
      have hcore := core_runTask_nil su ha hs
      refine .of_stacks (congrArg Core.registry hcore) ?_
      rw [hcore]
      dsimp only
      split_ifs
      · rfl
      · refine List.ext_getElem? fun i => ?_
        rw [List.getElem?_map, List.getElem?_map, List.getElem?_modify]
        by_cases hi : t = i
        · subst hi
          simp [ha, hs, Activity.finish]
        · simp [hi]
    | cons f rest => exact h.sway_move ha hs

theorem World.stacks_cancel (w : World) (t : Nat) :
    (w.cancel t).core.tasks.map (·.stack) = w.core.tasks.map (·.stack) := by
  rw [core_cancel]
  refine List.ext_getElem? fun i => ?_
  rw [List.getElem?_map, List.getElem?_map, List.getElem?_modify]
  cases w.core.tasks[i]? with
  | none => simp
  | some a => by_cases hi : t = i <;> cases he : a.ended.isSome <;> simp [hi, he]

end Steps

variable {may : Nat → Prop} {mover : Option Nat} {w' : World}

theorem Next.seated (hn : Next su may w mover w') (h : w.Seated) : w'.Seated := by
  cases hn with
  | move _ => exact h.runTask
  | rest _ hl _ =>
    intro a ha
    rw [hl.core] at ha
    exact h a ha
  | @drop v t _ hl hv hd =>
    obtain ⟨a, ha, -⟩ := hd
    intro b hb
    rw [World.core_drop hl hv] at hb
    rcases mem_modify ha hb with h1 | rfl
    · exact h b h1
    · trivial
  | @abort t _ _ =>
    intro b hb
    obtain ⟨i, hi⟩ := List.mem_iff_getElem?.1 hb
    have hlt : i < w.core.tasks.length := by
      have := lt_of_getElem? hi
      rw [World.core_cancel] at this
      simpa using this
    obtain ⟨d, hd, hu⟩ := (w.apart_cancel t).tasks i _ (List.getElem?_eq_getElem hlt)
    obtain rfl : b = d := Option.some.inj (hi.symm.trans hd)
    rw [hu.stack, hu.returned]
    exact h _ (List.getElem_mem hlt)

/-- One step under any scheduler. -/
theorem Next.sway (hn : Next su may w mover w') (h : w.Seated) : Sway w w' := by
  cases hn with
  | move _ => exact h.sway_runTask _
  | rest _ hl _ => exact .of_stacks (congrArg Core.registry hl.core) (by rw [hl.core])
  | @drop v t _ hl hv hd =>
    obtain ⟨a, ha, -⟩ := hd
    have hcore := World.core_drop (t := t) hl hv
    have htasks : (v.cancelNow t).core.tasks = w.core.tasks.modify t (·.finish .cancelled) := by
      rw [hcore]
      rfl
    have hcount := passes_modify ha (·.finish .cancelled)
    rw [← htasks, World.framesOf_core, World.framesOf_core] at hcount
    have hnil : passes (a.finish .cancelled).stack = 0 := rfl
    refine .keep (congrArg (·.registry.state) hcore) (by omega) fun hlt => ?_
    refine ⟨t, ⟨a, ha, by omega⟩, a.finish .cancelled, ?_, rfl, rfl⟩
    rw [htasks, List.getElem?_modify_eq, ha]
    rfl
  | @abort t _ _ => exact .of_stacks (congrArg Core.registry (w.core_cancel t)) (w.stacks_cancel t)

end PageTest
