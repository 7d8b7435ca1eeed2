import PageTest.Proofs.Polling.Meek
import PageTest.Proofs.Runs.Exact
import PageTest.Proofs.Signals.Earshot
import PageTest.Session

/-! What can happen under a cooperative scheduler, and what it is to those who are not at their turn. A task
keeps its turn until it waits; then anybody who is ready may have the next one, a round may begin, or the
session takes a step of its own. The machine's own scheduler is one of these, and so is a session. -/

namespace PageTest

namespace World

/-- Task 0 is in the middle of nothing. -/
def Vacant (w : World) : Prop := ∀ a, w.task? 0 = some a → a.stack = []

/-- The world after a session has begun with its next step. -/
def takes (su : Setup) (w : World) (s : Step) : World := ((Session.ofSteps w []).startStep su s []).world

/-- The world after a session has given the answer to a step. -/
def answered (w : World) : World := ((Session.ofSteps w []).answer (.value .done)).world

end World

/-- One thing that happens, with the task that moves and the signals that are fired. -/
inductive Happens (su : Setup) : World → Option Nat → List Signal → World → Prop
  | move {w : World} {t : Nat} : w.running = some t → Happens su w (some t) (w.signals su t) (w.runTask su t)
  | turn {w : World} {t : Nat} : w.running = none → t ∈ w.ready →
      Happens su w none [] ({ w with ready := w.ready.erase t }.turn t)
  | round {w v : World} : w.running = none → w.nextRound? = some v → Happens su w none [] v
  | step {w : World} (s : Step) : w.running = none → w.Vacant →
      Happens su w (some 0) (w.stepSignals su [] s) (w.takes su s)
  | answer {w : World} : (w.running = none ∨ w.running = some 0) → w.Vacant → Happens su w none [] w.answered

/-- An act with the signals that were fired in it. -/
structure Deed extends Act where
  signals : List Signal

/-- All that happens on the way from one world to another. -/
inductive Course (su : Setup) (w₀ : World) : List Deed → World → Prop
  | start : Course su w₀ [] w₀
  | step {ds : List Deed} {w v : World} {m : Option Nat} {σ : List Signal} :
      Course su w₀ ds w → Happens su w m σ v → Course su w₀ (ds ++ [⟨⟨m, w, v⟩, σ⟩]) v

theorem Course.trans {su : Setup} {w₀ w v : World} {ds ds' : List Deed} (h : Course su w₀ ds w)
    (h' : Course su w ds' v) : Course su w₀ (ds ++ ds') v := by
  induction h' with
  | start => simpa using h
  | step _ hn ih => simpa [List.append_assoc] using ih.step hn

theorem Course.single {su : Setup} {w v : World} {m : Option Nat} {σ : List Signal} (h : Happens su w m σ v) :
    Course su w [⟨⟨m, w, v⟩, σ⟩] v := by
  simpa using Course.start.step h

namespace World

/-! What is heard of it -/

/-- A task waits for a listener, or will go on waiting for it. -/
def Holds (w : World) (i l : Nat) : Prop :=
  ∃ st : List Frame, w.piles[i]? = some st ∧ ∃ f ∈ st, f.listener? = some l

/-- What becomes of listeners, and of those who wait for them, while no task but the `i`-th gets on. -/
structure Affects (i : Nat) (σ : List Signal) (w v : World) : Prop where
  grows : w.scene.page.listeners.length ≤ v.scene.page.listeners.length
  slots : ∀ l, some l ∈ v.scene.slots → some l ∈ w.scene.slots ∨
    (w.scene.page.listeners.length ≤ l ∧ l < v.scene.page.listeners.length)
  heard : ∀ (l : Nat) (a : Listener), w.scene.page.listeners[l]? = some a → some l ∉ w.scene.slots →
    ¬ w.Holds i l → v.scene.page.listeners[l]? = some (a.after σ)
  others : ∀ (j : Nat) (st : List Frame), j ≠ i → w.piles[j]? = some st → v.piles[j]? = some st
  holds : ∀ j l, v.Holds j l → w.Holds j l ∨
    (w.scene.page.listeners.length ≤ l ∧ l < v.scene.page.listeners.length)
  awake : ∀ t, t ≠ i → w.Awake t → v.Awake t
  told : ∀ (l : Nat) (a : Listener) (t : Nat), t ≠ i → w.scene.page.listeners[l]? = some a →
    some l ∉ w.scene.slots → ¬ w.Holds i l → a.state = .waiting → a.signal ∈ σ →
    w.tasks.findIdx? (awaits l) = some t → v.Awake t

variable {su : Setup} {i t : Nat} {σ : List Signal} {w v u : World}

theorem Hears.affects (h : Hears σ w v) (i : Nat) : Affects i σ w v where
  grows := h.scene.grows
  slots := h.scene.slots
  heard l a hl hs _ := h.scene.heard l a hl hs
  others j st _ hst := by
    obtain ⟨sts, -, he⟩ := h.piles
    rw [he, List.getElem?_append_left (List.getElem?_eq_some_iff.1 hst).1, hst]
  holds j l := by
    rintro ⟨st, hst, f, hf, hl⟩
    obtain ⟨sts, hs, he⟩ := h.piles
    rw [he] at hst
    rcases Nat.lt_or_ge j w.piles.length with hj | hj
    · rw [List.getElem?_append_left hj] at hst
      exact .inl ⟨st, hst, f, hf, hl⟩
    · rw [List.getElem?_append_right hj] at hst
      simp [hs st (List.mem_of_getElem? hst) f hf] at hl
  awake t _ := h.awake t
  told l a t _ hl hs _ hw hm ht := h.told l a t hl hs hw hm ht

namespace Affects

theorem trans (h : Affects i σ w v) (h' : Affects i [] v u) : Affects i σ w u where
  grows := h.grows.trans h'.grows
  slots l hl := by
    have h1 := h.grows
    have h2 := h'.grows
    rcases h'.slots l hl with h3 | h3
    · rcases h.slots l h3 with h4 | h4
      · exact .inl h4
      · exact .inr (by omega)
    · exact .inr (by omega)
  heard l a hl hs hi := by
    have hlt := (List.getElem?_eq_some_iff.1 hl).1
    have hs' : some l ∉ v.scene.slots := fun h1 => (h.slots l h1).elim hs (by omega)
    have hi' : ¬ v.Holds i l := fun h1 => (h.holds i l h1).elim hi (by omega)
    rw [h'.heard l _ (h.heard l a hl hs hi) hs' hi', Listener.after_nil]
  others j st hj hst := h'.others j st hj (h.others j st hj hst)
  holds j l hl := by
    have h1 := h.grows
    have h2 := h'.grows
    rcases h'.holds j l hl with h3 | h3
    · rcases h.holds j l h3 with h4 | h4
      · exact .inl h4
      · exact .inr (by omega)
    · exact .inr (by omega)
  awake t ht := h'.awake t ht ∘ h.awake t ht
  told l a t ht hl hs hi hw hm hf := h'.awake t ht (h.told l a t ht hl hs hi hw hm hf)

/-! One task gets on -/

theorem piles_modifyTask (w : World) (i : Nat) (f : Task → Task) (st : List Frame) (hf : ∀ x, (f x).stack = st)
    (j : Nat) : (w.modifyTask i f).piles[j]? = if i = j then w.piles[j]?.map fun _ => st else w.piles[j]? := by
  simp only [piles, modifyTask, List.getElem?_map, List.getElem?_modify]
  split_ifs <;> cases w.tasks[j]? <;> simp [hf]

/-- A move is put on the stack of the task that made it. -/
theorem put {f : Frame} {m : Move} {rest : List Frame} (h : w.Attends f σ (v, m)) (hi : w.piles[i]? = some (f :: rest))
    (g : Task → Task) (hg : ∀ x, (g x).stack = m.frames ++ rest) : Affects i σ w (v.modifyTask i g) := by
  have ha := h.hears.affects i
  refine ⟨ha.grows, ha.slots, ha.heard, fun j st hj hst => ?_, fun j l => ?_, ha.awake, ha.told⟩
  · rw [piles_modifyTask v i g _ hg, if_neg hj.symm]
    exact ha.others j st hj hst
  · rintro ⟨st, hst, f', hf', hl⟩
    rw [piles_modifyTask v i g _ hg] at hst
    split_ifs at hst with hj
    · subst hj
      obtain ⟨_, -, rfl⟩ := Option.map_eq_some_iff.1 hst
      rcases List.mem_append.1 hf' with h1 | h1
      · exact (h.frames f' h1 l hl).imp_left fun h2 => ⟨_, hi, f, by simp, h2⟩
      · exact .inl ⟨_, hi, f', by simp [h1], hl⟩
    · exact ha.holds j l ⟨st, hst, f', hf', hl⟩

theorem stop (hr : w.running = some i) : Affects i [] w { w with running := none } where
  grows := le_rfl
  slots l := .inl
  heard l a hl _ _ := by rw [Listener.after_nil]; exact hl
  others _ _ _ := id
  holds _ _ := .inl
  awake t ht h := .inr (h.resolve_left fun h1 => ht (Option.some.inj (h1.symm.trans hr)))
  told _ _ _ _ _ _ _ _ hm := by simp at hm

/-- A task puts everything down, and perhaps takes up something that waits for no listener. -/
theorem lay (w : World) (i : Nat) {st : List Frame} (hst : ∀ f ∈ st, f.listener? = none) (g : Task → Task)
    (hg : ∀ x, (g x).stack = st) : Affects i [] w (w.modifyTask i g) where
  grows := le_rfl
  slots l := .inl
  heard l a hl _ _ := by rw [Listener.after_nil]; exact hl
  others j st' hj hst' := by rw [piles_modifyTask w i g st hg, if_neg hj.symm]; exact hst'
  holds j l := by
    rintro ⟨st', hst', f, hf, hl⟩
    rw [piles_modifyTask w i g st hg] at hst'
    split_ifs at hst'
    · obtain ⟨_, -, rfl⟩ := Option.map_eq_some_iff.1 hst'
      simp [hst f hf] at hl
    · exact .inl ⟨st', hst', f, hf, hl⟩
  awake _ _ := id
  told _ _ _ _ _ _ _ _ hm := by simp at hm

theorem endTask (w : World) (i : Nat) (how : TaskReport) : Affects i [] w (w.endTask i how) :=
  (lay w i (by simp) (fun task => { task with stack := [], returned := none, ended := some how }) fun _ => rfl).trans
    ((Hears.wake? _ _).affects i)

/-- A task gives up a frame, and with it the listener that the frame waits for. -/
theorem dropFrame (w : World) {f : Frame} (hf : ∃ st : List Frame, w.piles[i]? = some st ∧ f ∈ st) :
    Affects i [] w (w.dropFrame f) := by
  unfold World.dropFrame
  split
  · split
    · exact (Hears.leaveLock w _).affects i
    · exact (Hears.refl w).affects i
  next loaded l =>
    obtain ⟨st, hst, hm⟩ := hf
    refine ⟨by simp [Page.dropListener], fun _ => .inl, fun l' a hl _ hi => ?_, fun _ _ _ => id,
      fun _ _ => .inl, fun _ _ => id, fun _ _ _ _ _ _ _ _ hm => by simp at hm⟩
    have hne : l ≠ l' := fun he => hi ⟨st, hst, _, hm, he ▸ rfl⟩
    simp [Page.dropListener, hne, hl, Listener.after_nil]
  · exact (Hears.refl w).affects i

theorem piles_dropFrame (w : World) (f : Frame) : (w.dropFrame f).piles = w.piles := by
  have wake (v : World) (t : Option Nat) : (v.wake? t).piles = v.piles := by
    cases t with
    | none => rfl
    | some t => unfold World.wake? World.wake; dsimp only; split_ifs <;> rfl
  unfold World.dropFrame
  split
  · split
    · exact wake _ _
    · rfl
  · rfl
  · rfl

theorem dropFrames {st : List Frame} (w : World) (hst : ∀ f ∈ st, ∃ st' : List Frame, w.piles[i]? = some st' ∧ f ∈ st') :
    Affects i [] w (st.foldl World.dropFrame w) := by
  induction st generalizing w with
  | nil => exact (Hears.refl w).affects i
  | cons f rest ih =>
    refine (dropFrame w (hst f (by simp))).trans (ih _ fun g hg => ?_)
    rw [piles_dropFrame]
    exact hst g (by simp [hg])

theorem cancelNow (w : World) (i : Nat) : Affects i [] w (w.cancelNow i) := by
  have hd : Affects i [] w (w.dropStack i) := by
    have hc : Hears [] w (w.clearTimer i) := .same rfl
    refine ((hc.affects i).trans (dropFrames _ fun f hf => ?_)).trans
      (lay _ i (by simp) (fun task => { task with stack := [], returned := none }) fun _ => rfl)
    cases hx : w.task? i with
    | none => simp [hx] at hf
    | some x =>
      refine ⟨x.stack, ?_, by simpa [hx] using hf⟩
      have hx' : w.tasks[i]? = some x := hx
      simp [clearTimer, piles, hx']
  exact hd.trans (endTask _ i .cancelled)

/-- A move is put into effect. -/
theorem apply {f : Frame} {m : Move} {rest : List Frame} (h : w.Attends f σ (v, m)) (hi : w.piles[i]? = some (f :: rest))
    (hr : v.running = some i) : Affects i σ w (v.apply i rest m) := by
  cases m with
  | goOn g => exact put h hi _ fun _ => rfl
  | call g callee => exact put h hi _ fun _ => rfl
  | leave o => exact put h hi _ fun _ => rfl
  | halt g =>
    have hp := put h hi (fun task => { task with stack := g :: rest, returned := none }) fun _ => rfl
    have hs := hp.trans (stop (by exact hr))
    simp only [World.apply]
    split_ifs
    · exact hs.trans (cancelNow _ i)
    · exact hs

theorem runTask (su : Setup) (hr : w.running = some i) : Affects i (w.signals su i) w (w.runTask su i) := by
  cases hx : w.task? i with
  | none =>
    have hs : w.signals su i = [] := by simp [signals, hx]
    rw [hs]
    unfold World.runTask
    simp only [hx]
    exact stop hr
  | some x =>
    cases hst : x.stack with
    | nil =>
      have hs : w.signals su i = [] := by
        obtain ⟨st, ret, e, c, wt⟩ := x
        obtain rfl : st = [] := hst
        simp [signals, hx]
      rw [hs]
      unfold World.runTask
      simp only [hx, hst]
      split_ifs
      · exact stop hr
      · exact (stop hr).trans (endTask _ i _)
    | cons f rest =>
      have hs : w.signals su i = f.signals su w x.returned := by
        obtain ⟨st, ret, e, c, wt⟩ := x
        obtain rfl : st = f :: rest := hst
        simp [signals, hx]
      have hx' : w.tasks[i]? = some x := hx
      have hrun : (f.act su w i x.returned).1.running = some i :=
        (f.apart_act su w i x.returned).running.trans hr
      rw [hs, runTask_frame su hx hst]
      exact apply (Frame.attends_act su w i f x.returned) (by simp [piles, hx', hst]) hrun

end Affects

/-! Turns and rounds -/

/-- Nothing changes but who is to have a turn. -/
theorem Hears.silent (hs : v.scene = w.scene) (hp : v.piles = w.piles) (ha : ∀ t, w.Awake t → v.Awake t) :
    Hears [] w v :=
  ⟨.same (by rw [hs]) (by rw [hs]), ⟨[], by simp, by simp [hp]⟩, ha, fun _ _ _ _ _ _ hm => by simp at hm⟩

theorem Hears.giveTurn (hr : w.running = none) (t : Nat) :
    Hears [] w ({ w with ready := w.ready.erase t }.giveTurn t) := by
  refine .silent rfl rfl fun u hu => ?_
  have hu' := hu.resolve_left fun h => by simp [hr] at h
  by_cases h : u = t
  · exact .inl (by simp [World.giveTurn, h])
  · exact .inr (hu'.imp_left fun h1 => (List.mem_erase_of_ne h).2 h1)

/-- Who has been asked to end is ended by its turn. -/
theorem Affects.turn (hr : w.running = none) (t : Nat) :
    Affects t [] w ({ w with ready := w.ready.erase t }.turn t) ∧
      ∀ x, w.task? t = some x → x.ended = none → x.cancelled = false →
        Hears [] w ({ w with ready := w.ready.erase t }.turn t) := by
  have drop : Affects t [] w { w with ready := w.ready.erase t } :=
    ⟨le_rfl, fun _ => .inl, fun l a hl _ _ => by rw [Listener.after_nil]; exact hl, fun _ _ _ => id,
      fun _ _ => .inl,
      fun u hu h => h.imp_right fun h => h.imp_left fun h => (List.mem_erase_of_ne hu).2 h,
      fun _ _ _ _ _ _ _ _ hm => by simp at hm⟩
  have give := Hears.giveTurn hr t
  have ht : World.task? { w with ready := w.ready.erase t } t = w.task? t := rfl
  unfold World.turn
  rw [ht]
  cases hx : w.task? t with
  | none => exact ⟨drop, fun x h => by simp at h⟩
  | some x =>
    dsimp only
    split_ifs with he hc
    · refine ⟨drop, fun y hy h => ?_⟩
      obtain rfl := Option.some.inj hy
      simp [h] at he
    · refine ⟨drop.trans (Affects.cancelNow _ t), fun y hy _ h => ?_⟩
      obtain rfl := Option.some.inj hy
      simp [h] at hc
    · exact ⟨give.affects t, fun _ _ _ _ => give⟩

theorem Hears.nextRound (hr : w.running = none) (h : w.nextRound? = some v) : Hears [] w v := by
  obtain ⟨u, hu, rfl⟩ := Option.map_eq_some_iff.1 h
  have woken : Hears [] w u ∧ u.running = none := by
    split_ifs at hu
    · obtain rfl := Option.some.inj hu
      have h1 : Hears [] w { w with yielding := [] } := .same rfl
      exact ⟨h1.trans (.wakeAll _ _), (congrArg Core.running (core_wakeYielding w)).trans hr⟩
    · obtain ⟨due, -, rfl⟩ := Option.map_eq_some_iff.1 hu
      refine ⟨?_, (running_advanceTo w due).trans hr⟩
      have h1 : Hears [] w { w with now := max w.now due, timers := w.timers.filter (due < ·.1) } := .same rfl
      have h2 := h1.trans (.wakeAll ((w.timers.filter (·.1 ≤ due)).map (·.2)) _)
      unfold advanceTo
      dsimp only
      split
      · split_ifs
        · exact h2.trans (.silent rfl rfl fun t ht => ht.imp_right fun h => h.imp_right fun h => ⟨h.1, rfl⟩)
        · exact h2
      · exact h2
  split_ifs
  · refine woken.1.trans (.silent rfl rfl fun t ht => ?_)
    rcases ht with h1 | h1 | h1
    · simp [woken.2] at h1
    · exact .inr (.inl h1)
    · exact .inl (by simp [World.giveTurn, h1.1])
  · exact woken.1

/-! Sessions -/

/-- Nobody but task 0 minds that it has nothing to do. -/
theorem Affects.idle (hr : w.running = none ∨ w.running = some 0) (hs : v.scene.page = w.scene.page)
    (hsl : v.scene.slots = w.scene.slots) (hp : v.piles = w.piles) (hq : v.ready = w.ready) :
    Affects 0 [] w v := by
  have he : earshot { v with running := w.running, mainReady := w.mainReady } = w.earshot := by
    simp only [earshot, Earshot.mk.injEq]
    exact ⟨by rw [hs], hsl, hp, trivial, hq, trivial⟩
  exact { (Hears.same he).affects 0 with
    awake := fun t ht h => by
      rcases h with h | h | h
      · rcases hr with hr | hr
        · simp [hr] at h
        · exact absurd (Option.some.inj (h.symm.trans hr)) ht
      · exact .inr (.inl (hq ▸ h))
      · exact absurd h.1 ht
    told := fun _ _ _ _ _ _ _ _ hm => by simp at hm }

theorem Affects.answered (hr : w.running = none ∨ w.running = some 0) : Affects 0 [] w w.answered := by
  have h := lay w 0 (by simp) (fun task => { task with stack := [], returned := none }) fun _ => rfl
  exact h.trans (idle hr rfl rfl rfl rfl)

theorem Affects.takes (su : Setup) (hr : w.running = none) (s : Step) :
    Affects 0 (w.stepSignals su [] s) w (w.takes su s) := by
  obtain ⟨hh, hf⟩ := Hears.begin su [] w s
  have hrun : (w.begin su [] s).1.running = none := (apart_begin su [] w s).running.trans hr
  unfold World.takes Session.startStep
  dsimp only [Session.ofSteps]
  rcases hb : w.begin su [] s with ⟨v, o | f⟩
  · rw [hb] at hh hrun
    exact (hh.affects 0).trans (answered (.inl hrun))
  · rw [hb] at hh hf hrun
    have hnone : ∀ g ∈ [f], g.listener? = none := by simpa using hf f rfl
    have hl := lay v 0 hnone (fun task => { task with stack := [f], returned := none }) fun _ => rfl
    exact ((hh.affects 0).trans hl).trans (idle (.inl hrun) rfl rfl rfl rfl)

end World

/-! All that can happen -/

variable {su : Setup} {w v : World} {m : Option Nat} {σ : List Signal} {t : Nat}

theorem Happens.affects (h : Happens su w m σ v) : ∃ i, w.Affects i σ v := by
  cases h with
  | move hr => exact ⟨_, .runTask su hr⟩
  | turn hr => exact ⟨_, (World.Affects.turn hr _).1⟩
  | round hr hv => exact ⟨0, (World.Hears.nextRound hr hv).affects 0⟩
  | step s hr => exact ⟨0, .takes su hr s⟩
  | answer hr => exact ⟨0, .answered hr⟩

theorem World.tasks_turn (w : World) (j : Nat) : (w.turn j).core.tasks = w.core.tasks ∨
    ((∃ x, w.task? j = some x ∧ x.cancelled = true) ∧
      (w.turn j).core.tasks = w.core.tasks.modify j (·.finish .cancelled)) := by
  unfold World.turn
  split
  · exact .inl rfl
  next x hx =>
    split_ifs with he hc
    · exact .inl rfl
    · exact .inr ⟨⟨x, hx, hc⟩, by rw [World.core_cancelNow]; rfl⟩
    · exact .inl rfl

theorem World.tasks_nextRound (h : w.nextRound? = some v) : v.core.tasks = w.core.tasks := by
  obtain ⟨u, hu, rfl⟩ := Option.map_eq_some_iff.1 h
  have hc : u.core.tasks = w.core.tasks := by
    split_ifs at hu
    · obtain rfl := Option.some.inj hu
      rw [World.core_wakeYielding]
    · obtain ⟨due, -, rfl⟩ := Option.map_eq_some_iff.1 hu
      rw [(World.later_advanceTo w due).core]
  split_ifs <;> exact hc

theorem World.untouched_answered (h0 : 0 ≠ t) {a : Activity} (ha : w.core.tasks[t]? = some a) :
    ∃ a', w.answered.core.tasks[t]? = some a' ∧ Untouched True a a' := by
  refine ⟨a, ?_, .refl a⟩
  have hk := congrArg Core.tasks (World.core_put w 0 [] none)
  have ho := Core.put_tasks_other (k := w.core) [] none h0.symm
  rw [← hk] at ho
  exact ho.trans ha

theorem World.untouched_takes (su : Setup) (s : Step) (h0 : 0 ≠ t) {a : Activity}
    (ha : w.core.tasks[t]? = some a) : ∃ a', (w.takes su s).core.tasks[t]? = some a' ∧ Untouched True a a' := by
  obtain ⟨a', ha', hu⟩ := (World.apart_begin su [] w s).tasks t a ha
  unfold World.takes Session.startStep
  dsimp only [Session.ofSteps]
  rcases hb : w.begin su [] s with ⟨v, o | f⟩
  · rw [hb] at ha'
    obtain ⟨b, hb', hu'⟩ := World.untouched_answered h0 ha'
    exact ⟨b, hb', hu.trans hu' fun _ => trivial⟩
  · rw [hb] at ha'
    refine ⟨a', ?_, hu⟩
    have hk := congrArg Core.tasks (World.core_put v 0 [f] none)
    have ho := Core.put_tasks_other (k := v.core) [f] none h0.symm
    rw [← hk] at ho
    exact ho.trans ha'

/-- A task that does not move stays as it is; only its own turn ends it, if it has been asked to end. -/
theorem Happens.apart (h : Happens su w m σ v) (hm : m ≠ some t) {a : Activity} (ha : w.core.tasks[t]? = some a)
    (hst : a.stack ≠ []) (he : a.ended = none) (hs : v.Spared t) :
    (∃ a', v.core.tasks[t]? = some a' ∧ Untouched True a a') ∧ ∃ i, i ≠ t ∧ w.Affects i σ v := by
  have hx : ∃ x, w.task? t = some x ∧ x.activity = a := by
    rw [World.getElem?_core] at ha
    exact Option.map_eq_some_iff.1 ha
  obtain ⟨x, hx, rfl⟩ := hx
  have busy (h0 : w.Vacant) : 0 ≠ t := fun h => hst (h0 x (h ▸ hx))
  cases h with
  | move hr =>
    exact ⟨World.runTask_other su (fun he => hm (he ▸ rfl)) ha, _, fun he => hm (he ▸ rfl), .runTask su hr⟩
  | @turn j hr hj =>
    rcases World.tasks_turn { w with ready := w.ready.erase j } j with h1 | ⟨⟨y, hy, hc⟩, h1⟩
    · refine ⟨⟨_, h1 ▸ ha, .refl _⟩, ?_⟩
      by_cases hjt : j = t
      · subst hjt
        have hnc : x.cancelled = false := hs.kept (a := x.activity) (by rw [h1]; exact ha)
        exact ⟨j + 1, by omega, ((World.Affects.turn hr j).2 x hx he hnc).affects _⟩
      · exact ⟨j, hjt, (World.Affects.turn hr j).1⟩
    · have hjt : j ≠ t := by
        rintro rfl
        obtain rfl : x = y := Option.some.inj (hx.symm.trans hy)
        have hk : (World.turn { w with ready := w.ready.erase j } j).core.tasks[j]? =
            some (x.activity.finish .cancelled) := by
          rw [h1, List.getElem?_modify_eq]
          exact (congrArg (Option.map _) ha).trans rfl
        have := hs.kept hk
        simp [Activity.finish, Task.activity, hc] at this
      refine ⟨⟨x.activity, ?_, .refl _⟩, j, hjt, (World.Affects.turn hr j).1⟩
      rw [h1]
      change (w.core.tasks.modify j _)[t]? = _
      simp [hjt, ha]
  | round hr hv =>
    exact ⟨⟨_, by rw [World.tasks_nextRound hv]; exact ha, .refl _⟩, t + 1, by omega,
      (World.Hears.nextRound hr hv).affects _⟩
  | step s hr h0 => exact ⟨World.untouched_takes su s (busy h0) ha, 0, busy h0, .takes su hr s⟩
  | answer hr h0 => exact ⟨World.untouched_answered (busy h0) ha, 0, busy h0, .answered hr⟩

/-- Nobody else gets on while a task is at its turn. -/
theorem Happens.mover_of_running (h : Happens su w m σ v) (hr : w.running = some t) {a : Activity}
    (ha : w.core.tasks[t]? = some a) (hst : a.stack ≠ []) : m = some t := by
  cases h with
  | move hr' => rw [← hr, hr']
  | turn hr' => simp [hr] at hr'
  | round hr' => simp [hr] at hr'
  | step s hr' => simp [hr] at hr'
  | answer hr' hvacant =>
    -- task 0 is not done while it is in the middle of something
    rw [World.getElem?_core] at ha
    obtain ⟨x, hx, rfl⟩ := Option.map_eq_some_iff.1 ha
    have hzero : t = 0 := by simpa [hr] using hr'
    exact absurd (hvacant x (hzero ▸ hx)) hst

end PageTest
