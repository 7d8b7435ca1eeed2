import PageTest.Proofs.Drive.Watch
import PageTest.Proofs.Signals.Sessions

/-! Waiting for a page to load and to be shown. The caller listens for `load`, and for `pageshow` only once
it has had a turn after that: so what has to happen is a `load`, then a turn of the caller, then a `pageshow`.
No signal that comes at its time is lost. -/

namespace PageTest

variable {su : Setup} {w w' v : World} {m : Option Nat} {σ τ : List Signal} {i t l : Nat} {rest : List Frame}

/-! Listeners in use -/

namespace World

/-- Every listener that is asked about or waited for has been given out by the page. -/
structure Numbered (w : World) : Prop where
  slots : ∀ l, some l ∈ w.scene.slots → l < w.scene.page.listeners.length
  holds : ∀ i l, w.Holds i l → l < w.scene.page.listeners.length

theorem Affects.numbered (h : w.Affects i σ v) (hn : w.Numbered) : v.Numbered where
  slots l hl := by
    have hg := h.grows
    rcases h.slots l hl with h1 | h1
    · have := hn.slots l h1
      omega
    · exact h1.2
  holds j l hl := by
    have hg := h.grows
    rcases h.holds j l hl with h1 | h1
    · have := hn.holds j l h1
      omega
    · exact h1.2

theorem numbered_ofPage (p : Page Action) : (ofPage p).Numbered where
  slots l hl := by simp [ofPage, Scene.ofPage] at hl
  holds i l := by
    rintro ⟨st, hst, f, hf, -⟩
    obtain rfl : st = [] := by
      have hm := List.mem_of_getElem? hst
      simpa [piles, ofPage, Task.start] using hm
    simp at hf

/-- The task is in the middle of some frames, and nothing is handed down to them. -/
def At (w : World) (t : Nat) (st : List Frame) : Prop :=
  ∃ a, w.core.tasks[t]? = some a ∧ a.stack = st ∧ a.returned = none ∧ a.ended = none

/-- A listener that nobody else has to do with; if its signal was heard, the task that waits for it has a
turn to come. -/
structure Listens (w : World) (t l : Nat) (sig : Signal) (heard : Bool) : Prop where
  listener : w.scene.page.listeners[l]? =
    some ⟨sig.target, sig.event, if heard then .fired else .waiting⟩
  slots : some l ∉ w.scene.slots
  sole : ∀ i, i ≠ t → ¬ w.Holds i l
  awake : heard = true → w.Awake t

theorem piles_of_core {a : Activity} (h : w.core.tasks[t]? = some a) : w.piles[t]? = some a.stack := by
  rw [getElem?_core] at h
  obtain ⟨x, hx, rfl⟩ := Option.map_eq_some_iff.1 h
  have hx' : w.tasks[t]? = some x := hx
  simp [piles, hx', Task.activity]

theorem At.pile {st : List Frame} (h : w.At t st) : w.piles[t]? = some st := by
  obtain ⟨a, ha, rfl, -⟩ := h
  exact piles_of_core ha

namespace Listens

variable {sig : Signal} {heard loaded : Bool}

/-- It is this task that is told when the listener is completed. -/
theorem findIdx (h : w.Listens t l sig heard) (hat : w.At t (.waitLoad loaded (some l) :: rest)) :
    w.tasks.findIdx? (awaits l) = some t := by
  have hp := hat.pile
  simp only [piles, List.getElem?_map, Option.map_eq_some_iff] at hp
  obtain ⟨x, hx, hst⟩ := hp
  obtain ⟨hlt, rfl⟩ := List.getElem?_eq_some_iff.1 hx
  refine List.findIdx?_eq_some_iff_getElem.2 ⟨hlt, by simp [awaits, hst], fun j hj haw => ?_⟩
  refine h.sole j (by omega) ?_
  unfold awaits at haw
  split at haw
  next loaded' l' below hs =>
    obtain rfl : l = l' := by simpa using haw
    exact ⟨w.tasks[j].stack, by simp [piles, show j < w.tasks.length by omega], .waitLoad loaded' (some l), by simp [hs], rfl⟩
  next => simp at haw

/-- While somebody else gets on, the signal is heard if and only if it is fired. -/
theorem affects (h : w.Listens t l sig heard) (hat : w.At t (.waitLoad loaded (some l) :: rest))
    (ha : w.Affects i σ v) (hi : i ≠ t) : v.Listens t l sig (heard || decide (sig ∈ σ)) where
  listener := by
    have hl := ha.heard l _ h.listener h.slots (h.sole i hi)
    rw [hl, Listener.after]
    cases heard <;> by_cases hm : sig ∈ σ <;> simp [Listener.signal, hm]
  slots hs := by
    have hlt := (List.getElem?_eq_some_iff.1 h.listener).1
    rcases ha.slots l hs with h1 | h1
    · exact h.slots h1
    · omega
  sole j hj hh := by
    have hlt := (List.getElem?_eq_some_iff.1 h.listener).1
    rcases ha.holds j l hh with h1 | h1
    · exact h.sole j hj h1
    · omega
  awake hb := by
    cases heard with
    | true => exact ha.awake t hi.symm (h.awake rfl)
    | false =>
      have hm : sig ∈ σ := by simpa using hb
      exact ha.told l _ t hi.symm h.listener h.slots (h.sole i hi) rfl hm (h.findIdx hat)

end Listens

/-- A call is in progress, above some frames of its caller. -/
def InCall (w : World) (t : Nat) (rest : List Frame) : Prop := ∃ loaded l, w.At t (.waitLoad loaded l :: rest)

/-- A task calls, and has not yet asked the page for a listener. -/
structure Calls (w : World) (t : Nat) (rest : List Frame) : Prop where
  running : w.running = some t
  stack : w.At t (.waitLoad false none :: rest)

/-- Nobody is ready. -/
def Idle (w : World) : Prop := w.running = none ∧ w.ready = [] ∧ w.mainReady = false

instance (w : World) : Decidable w.Idle := inferInstanceAs (Decidable (_ ∧ _ ∧ _))

theorem Idle.not_awake (h : w.Idle) (t : Nat) : ¬ w.Awake t := by
  simp [Awake, h.1, h.2.1, h.2.2]

end World

/-! What happens -/

/-- What a call depends on: signals, and turns of the caller. -/
inductive Mark where
  | fired (s : Signal)
  | moved (t : Nat)
  deriving DecidableEq, Repr

def Deed.marks (d : Deed) : List Mark := (d.mover.map Mark.moved).toList ++ d.signals.map .fired

def marks (ds : List Deed) : List Mark := ds.flatMap Deed.marks

/-- The entries that a task appended in some deeds. -/
def saidIn (t : Nat) (ds : List Deed) : List LogEntry := said t (ds.map Deed.toAct)

def loadSignal : Signal := ⟨.frame, "load"⟩

def showSignal : Signal := ⟨.window, "pageshow"⟩

def loadedEntry : LogEntry := ⟨.info, "Frame loaded, waiting for pageshow"⟩

def shownEntry : LogEntry := ⟨.info, "Page shown"⟩

/-- A page was loaded, and the caller has taken note of it. -/
def noted (t : Nat) : List Mark := [.fired loadSignal, .moved t]

/-- After that the page was shown. -/
def complete (t : Nat) : List Mark := [.fired loadSignal, .moved t, .fired showSignal]

theorem noted_of_complete {ms : List Mark} (h : (complete t).Sublist ms) : (noted t).Sublist ms :=
  List.Sublist.trans (by simp [noted, complete]) h

section

variable {α : Type} {l₀ ms ns : List α} {x : α}

theorem sublist_append_last (hx : x ∉ ns) : (l₀ ++ [x]).Sublist (ms ++ ns) ↔ (l₀ ++ [x]).Sublist ms := by
  refine ⟨fun h => ?_, fun h => h.trans (List.sublist_append_left ms ns)⟩
  obtain ⟨l₁, l₂, he, h1, h2⟩ := List.sublist_append_iff.1 h
  rcases List.eq_nil_or_concat l₂ with rfl | ⟨l₂, y, rfl⟩
  · rw [he]
    simpa using h1
  · rw [List.concat_eq_append, ← List.append_assoc] at he
    obtain rfl : x = y := by simpa using (List.append_inj' he rfl).2
    exact absurd (h2.subset (by simp)) hx

theorem sublist_append_last_iff (hl : l₀.Sublist ms) :
    (l₀ ++ [x]).Sublist (ms ++ ns) ↔ (l₀ ++ [x]).Sublist ms ∨ x ∈ ns := by
  constructor
  · intro h
    by_cases hx : x ∈ ns
    · exact .inr hx
    · exact .inl ((sublist_append_last hx).1 h)
  · rintro (h | h)
    · exact h.trans (List.sublist_append_left ms ns)
    · exact hl.append (List.singleton_sublist.2 h)

end

/-! How far a call has come -/

/-- How far a call has come, given what has happened since it began and what it has appended. -/
inductive CallStage (t : Nat) (rest : List Frame) (ms : List Mark) (es : List LogEntry) (w : World) : Prop
  | loading {l : Nat} (heard : Bool) : w.At t (.waitLoad false (some l) :: rest) →
      w.Listens t l loadSignal heard → (heard = true ↔ .fired loadSignal ∈ ms) → ¬ (noted t).Sublist ms →
      es = [] → CallStage t rest ms es w
  | loaded : w.At t (.waitLoad true none :: rest) → w.running = some t → (noted t).Sublist ms →
      ¬ (complete t).Sublist ms → es = [loadedEntry] → CallStage t rest ms es w
  | showing {l : Nat} (heard : Bool) : w.At t (.waitLoad true (some l) :: rest) →
      w.Listens t l showSignal heard → (noted t).Sublist ms → (heard = true ↔ (complete t).Sublist ms) →
      es = [loadedEntry] → CallStage t rest ms es w

/-- The call returns. -/
def Returns (t : Nat) (rest : List Frame) (d : Deed) : Prop :=
  d.before.InCall t rest ∧ d.after.Back t rest (.value .done)

theorem CallStage.inCall {ms : List Mark} {es : List LogEntry} (h : CallStage t rest ms es w) : w.InCall t rest := by
  cases h with
  | loading _ h => exact ⟨_, _, h⟩
  | loaded h => exact ⟨_, _, h⟩
  | showing _ h => exact ⟨_, _, h⟩

theorem World.InCall.not_back {o : Outcome} (h : w.InCall t rest) : ¬ w.Back t rest o := by
  rintro ⟨a, ha, hs, -⟩
  obtain ⟨loaded, l, b, hb, hs', -⟩ := h
  obtain rfl := Option.some.inj (ha.symm.trans hb)
  rw [hs] at hs'
  exact absurd (congrArg List.length hs') (by simp)

/-! Moves of the caller -/

/-- One move of a task that has not been asked to end. -/
theorem runTask_at {f : Frame} (hat : w.At t (f :: rest)) (hs : (w.runTask su t).Spared t) :
    ∃ x, w.task? t = some x ∧ x.cancelled = false ∧
      w.runTask su t = (f.run su w t).1.apply t rest (f.run su w t).2 ∧
      ∃ b, (w.runTask su t).core.tasks[t]? = some b ∧ b.ended = none ∧
        (b.stack, b.returned) = (f.run su w t).2.onto rest := by
  obtain ⟨a, ha, hst, hr, he⟩ := hat
  obtain ⟨b, hb, hu⟩ := (f.apart_act su w t a.returned).tasks t a ha
  have hmoved : (w.runTask su t).core.tasks[t]? = some (b.moved rest (f.run su w t).2) := by
    rw [World.core_runTask su ha hst, Core.settle_self hb, hr]
    rfl
  have hkept := hs.kept hmoved
  have hbc : b.cancelled = false := by
    cases hc : b.cancelled with
    | false => rfl
    | true =>
      unfold Activity.moved at hkept
      split at hkept
      · simp [hc, Activity.finish] at hkept
      · simp [hc, Activity.put] at hkept
  have hac : a.cancelled = false := by
    cases hc : a.cancelled with
    | false => rfl
    | true => simp [hu.kept hc] at hbc
  rw [Activity.moved_onto (by simp [hbc])] at hmoved
  rw [World.getElem?_core] at ha
  obtain ⟨x, hx, rfl⟩ := Option.map_eq_some_iff.1 ha
  refine ⟨x, hx, hac, ?_, _, hmoved, by rw [← he, ← hu.ended]; rfl, rfl⟩
  have hx' : x.returned = none := hr
  rw [World.runTask_frame su hx hst, hx']
  rfl

theorem World.Holds.of_modifyTask {g : Task → Task} {st : List Frame} (h : (w.modifyTask t g).Holds i l)
    (hg : ∀ x, (g x).stack = st) (hi : i ≠ t) : w.Holds i l := by
  obtain ⟨st', hst, hf⟩ := h
  rw [World.Affects.piles_modifyTask w t g st hg, if_neg hi.symm] at hst
  exact ⟨st', hst, hf⟩

/-- The caller asks the page for a listener, which nobody else knows of. -/
theorem calls_listen {loaded : Bool} (hd : su.deaf = false) (hn : w.Numbered)
    (hat : w.At t (.waitLoad loaded none :: rest)) (hs : (w.runTask su t).Spared t) :
    ∃ l, (w.runTask su t).At t (.waitLoad loaded (some l) :: rest) ∧
      (w.runTask su t).Listens t l (if loaded then showSignal else loadSignal) false ∧
      (w.runTask su t).log = w.log := by
  obtain ⟨-, -, -, hrun, b, hb, hbe, hbo⟩ := runTask_at hat hs
  have hnew (target : SignalTarget) (event : String) (g : Task → Task) (st : List Frame) (hg : ∀ x, (g x).stack = st) :
      (World.modifyTask { w with scene := { w.scene with page := (w.scene.page.listen target event).2 } } t g).Listens t
        w.scene.page.listeners.length ⟨target, event⟩ false := by
    refine ⟨by simp [World.modifyTask, Page.listen], fun h => ?_, fun i hi h => ?_, by simp⟩
    · exact absurd (hn.slots _ h) (by simp)
    · have h' : w.Holds i w.scene.page.listeners.length := h.of_modifyTask hg hi
      exact absurd (hn.holds i _ h') (by simp)
  refine ⟨w.scene.page.listeners.length, ?_⟩
  cases loaded with
  | true =>
    simp only [Frame.run, Frame.runWaitLoad, hd, World.apply] at hrun hbo
    rw [hrun] at hb ⊢
    exact ⟨⟨b, hb, (Prod.mk.inj hbo).1, (Prod.mk.inj hbo).2, hbe⟩, hnew _ _ _ _ fun _ => rfl, rfl⟩
  | false =>
    simp only [Frame.run, Frame.runWaitLoad, hd, World.apply] at hrun hbo
    rw [hrun] at hb ⊢
    exact ⟨⟨b, hb, (Prod.mk.inj hbo).1, (Prod.mk.inj hbo).2, hbe⟩, hnew _ _ _ _ fun _ => rfl, rfl⟩

/-- A turn that finds nothing heard changes nothing. -/
theorem waits_on {loaded : Bool} {sig : Signal} (hat : w.At t (.waitLoad loaded (some l) :: rest))
    (hl : w.Listens t l sig false) (hs : (w.runTask su t).Spared t) :
    (w.runTask su t).At t (.waitLoad loaded (some l) :: rest) ∧ (w.runTask su t).Listens t l sig false ∧
      (w.runTask su t).log = w.log := by
  obtain ⟨x, hx, hc, hrun, b, hb, hbe, hbo⟩ := runTask_at hat hs
  have hstate : w.scene.page.listenerState l ≠ some .fired := by simp [Page.listenerState, hl.listener]
  simp only [Frame.run, Frame.runWaitLoad, hstate, if_false] at hrun hbo
  obtain ⟨hbs, hbr⟩ := Prod.mk.inj hbo
  have hv : w.runTask su t = { w.modifyTask t fun task =>
      { task with stack := .waitLoad loaded (some l) :: rest, returned := none } with running := none } := by
    rw [hrun]
    have hk : ((World.modifyTask w t fun task =>
        { task with stack := Frame.waitLoad loaded (some l) :: rest, returned := none }).task? t).map (·.cancelled) =
          some false := by
      simp [World.task?_modifyTask_self, hx, hc]
    have hk' : (World.task? { w.modifyTask t fun task =>
        { task with stack := Frame.waitLoad loaded (some l) :: rest, returned := none } with
          running := none } t).map (·.cancelled) = some false := hk
    simp only [World.apply, hk', Option.getD_some]
    rfl
  refine ⟨⟨b, hb, hbs, hbr, hbe⟩, ?_, by rw [hv]; rfl⟩
  rw [hv]
  refine ⟨hl.listener, hl.slots, fun i hi h => ?_, by simp⟩
  have h' : (w.modifyTask t fun task =>
      { task with stack := .waitLoad loaded (some l) :: rest, returned := none }).Holds i l := h
  exact hl.sole i hi (h'.of_modifyTask (fun _ => rfl) hi)

/-- A turn that finds the signal heard. -/
theorem hears_on {loaded : Bool} {sig : Signal} (hat : w.At t (.waitLoad loaded (some l) :: rest))
    (hl : w.Listens t l sig true) (hs : (w.runTask su t).Spared t) :
    (w.runTask su t).log = w.log.append (if loaded then shownEntry else loadedEntry) ∧
      (if loaded then (w.runTask su t).Back t rest (.value .done)
        else (w.runTask su t).At t (.waitLoad true none :: rest) ∧ (w.runTask su t).running = w.running) := by
  obtain ⟨-, -, -, hrun, b, hb, hbe, hbo⟩ := runTask_at hat hs
  have hstate : w.scene.page.listenerState l = some .fired := by simp [Page.listenerState, hl.listener]
  cases loaded with
  | true =>
    simp only [Frame.run, Frame.runWaitLoad, hstate, if_true, World.apply] at hrun hbo
    exact ⟨by rw [hrun]; rfl, b, hb, (Prod.mk.inj hbo).1, (Prod.mk.inj hbo).2⟩
  | false =>
    simp only [Frame.run, Frame.runWaitLoad, hstate, if_true, World.apply] at hrun hbo
    exact ⟨by rw [hrun]; rfl, ⟨b, hb, (Prod.mk.inj hbo).1, (Prod.mk.inj hbo).2, hbe⟩, by rw [hrun]; rfl⟩

/-! One thing that happens, and a whole run -/

theorem fired_mem_marks {s : Signal} : Mark.fired s ∈ Deed.marks ⟨⟨m, w, v⟩, σ⟩ ↔ s ∈ σ := by
  cases m <;> simp [Deed.marks]

theorem moved_notMem_marks (h : m ≠ some t) : Mark.moved t ∉ Deed.marks ⟨⟨m, w, v⟩, σ⟩ := by
  cases m with
  | none => simp [Deed.marks]
  | some i => simpa [Deed.marks, eq_comm] using h

/-- The caller has moved, and fired nothing. -/
theorem marks_waitLoad {loaded : Bool} {l : Option Nat} (hat : w.At t (.waitLoad loaded l :: rest)) :
    w.signals su t = [] ∧ Deed.marks ⟨⟨some t, w, v⟩, []⟩ = [.moved t] := by
  obtain ⟨a, ha, hst, hr, -⟩ := hat
  rw [World.getElem?_core] at ha
  obtain ⟨⟨st, ret, e, c, wt⟩, hx, rfl⟩ := Option.map_eq_some_iff.1 ha
  obtain rfl : st = .waitLoad loaded l :: rest := hst
  exact ⟨by simp [World.signals, hx, Frame.signals], rfl⟩

/-- Somebody else gets on. -/
theorem CallStage.other {ms : List Mark} {es : List LogEntry} (h : CallStage t rest ms es w)
    (hn : Happens su w m σ v) (hm : m ≠ some t) (hs : v.Spared t) :
    CallStage t rest (ms ++ Deed.marks ⟨⟨m, w, v⟩, σ⟩) es v := by
  have stays {st : List Frame} (hat : w.At t st) (hst : st ≠ []) :
      v.At t st ∧ ∃ i, i ≠ t ∧ w.Affects i σ v := by
    obtain ⟨a, ha, rfl, hr, he⟩ := hat
    obtain ⟨⟨b, hb, hu⟩, hi⟩ := hn.apart hm ha hst he hs
    exact ⟨⟨b, hb, hu.stack, hu.returned.trans hr, hu.ended.trans he⟩, hi⟩
  have turn : ([Mark.fired loadSignal] ++ [Mark.moved t]).Sublist (ms ++ Deed.marks ⟨⟨m, w, v⟩, σ⟩) ↔ (noted t).Sublist ms :=
    sublist_append_last (moved_notMem_marks hm)
  cases h with
  | @loading l heard hat hl hload hnot hes =>
    obtain ⟨hat', i, hi, ha⟩ := stays hat (by simp)
    refine .loading _ hat' (hl.affects hat ha hi) ?_ (mt turn.1 hnot) hes
    rw [List.mem_append, ← hload, fired_mem_marks]
    simp
  | loaded hat hr _ _ _ =>
    obtain ⟨a, ha, hst, -⟩ := hat
    exact absurd (hn.mover_of_running hr ha (by simp [hst])) hm
  | @showing l heard hat hl hnoted hshow hes =>
    obtain ⟨hat', i, hi, ha⟩ := stays hat (by simp)
    have hc : (noted t ++ [Mark.fired showSignal]).Sublist (ms ++ Deed.marks ⟨⟨m, w, v⟩, σ⟩) ↔
        (complete t).Sublist ms ∨ Mark.fired showSignal ∈ Deed.marks ⟨⟨m, w, v⟩, σ⟩ := sublist_append_last_iff hnoted
    rw [← hshow, fired_mem_marks] at hc
    refine .showing _ hat' (hl.affects hat ha hi) (turn.2 hnoted) ?_ hes
    rw [show complete t = noted t ++ [Mark.fired showSignal] from rfl, hc]
    simp

/-- The caller moves. -/
theorem CallStage.own {ms : List Mark} {es : List LogEntry} (hd : su.deaf = false) (hw : w.Numbered)
    (h : CallStage t rest ms es w) (hr : w.running = some t) (hs : (w.runTask su t).Spared t) :
    let v := w.runTask su t
    let d : Deed := ⟨⟨some t, w, v⟩, w.signals su t⟩
    CallStage t rest (ms ++ d.marks) (es ++ d.entries) v ∨
      (v.Back t rest (.value .done) ∧ es ++ d.entries = [loadedEntry, shownEntry] ∧ (complete t).Sublist (ms ++ d.marks)) := by
  intro v d
  have silent (hl : v.log = w.log) : d.entries = [] := by simp [d, Act.entries, hl]
  have adds {e : LogEntry} (hl : v.log = w.log.append e) : d.entries = [e] := by simp [d, Act.entries, hl]
  have shown : (noted t ++ [Mark.fired showSignal]).Sublist (ms ++ [Mark.moved t]) ↔ (complete t).Sublist ms :=
    sublist_append_last (by simp)
  cases h with
  | @loading l heard hat hl hload hnot hes =>
    obtain ⟨hsig, hmarks⟩ := marks_waitLoad (v := v) hat
    have hd' : d.marks = [.moved t] := by rw [← hmarks, ← hsig]
    cases heard with
    | false =>
      obtain ⟨hat', hl', hlog⟩ := waits_on hat hl hs
      rw [hd', silent hlog, List.append_nil]
      have hnl : Mark.fired loadSignal ∉ ms := by simpa using hload
      refine .inl (.loading false hat' hl' (by simpa using hnl) (fun hc => ?_) hes)
      exact absurd (hc.subset (List.mem_cons_self ..)) (by simpa using hnl)
    | true =>
      obtain ⟨hlog, hat', hr'⟩ := hears_on hat hl hs
      rw [hd', adds hlog, hes]
      have hm : Mark.fired loadSignal ∈ ms := by simpa using hload
      have hsub : [Mark.fired loadSignal].Sublist ms := List.singleton_sublist.2 hm
      exact .inl (.loaded hat' (hr'.trans hr) (hsub.append (List.Sublist.refl [Mark.moved t]))
        (fun hc => hnot (noted_of_complete (shown.1 hc))) rfl)
  | loaded hat _ hnoted hnot hes =>
    obtain ⟨hsig, hmarks⟩ := marks_waitLoad (v := v) hat
    have hd' : d.marks = [.moved t] := by rw [← hmarks, ← hsig]
    obtain ⟨l, hat', hl', hlog⟩ := calls_listen hd hw hat hs
    rw [hd', silent hlog, List.append_nil]
    exact .inl (.showing false hat' hl' (hnoted.trans (List.sublist_append_left ..))
      (iff_of_false (by simp) (mt shown.1 hnot)) hes)
  | @showing l heard hat hl hnoted hshow hes =>
    obtain ⟨hsig, hmarks⟩ := marks_waitLoad (v := v) hat
    have hd' : d.marks = [.moved t] := by rw [← hmarks, ← hsig]
    cases heard with
    | false =>
      obtain ⟨hat', hl', hlog⟩ := waits_on hat hl hs
      rw [hd', silent hlog, List.append_nil]
      exact .inl (.showing false hat' hl' (hnoted.trans (List.sublist_append_left ..)) (hshow.trans shown.symm) hes)
    | true =>
      obtain ⟨hlog, hback⟩ := hears_on hat hl hs
      rw [hd', adds hlog, hes]
      exact .inr ⟨hback, rfl, shown.2 (hshow.1 rfl)⟩

theorem CallStage.step {ms : List Mark} {es : List LogEntry} (hd : su.deaf = false) (hw : w.Numbered)
    (h : CallStage t rest ms es w) (hn : Happens su w m σ v) (hs : v.Spared t) :
    let d : Deed := ⟨⟨m, w, v⟩, σ⟩
    CallStage t rest (ms ++ d.marks) (es ++ saidIn t [d]) v ∨
      (v.Back t rest (.value .done) ∧ es ++ saidIn t [d] = [loadedEntry, shownEntry] ∧
        (complete t).Sublist (ms ++ d.marks)) := by
  intro d
  by_cases hm : m = some t
  · subst hm
    have hsaid : saidIn t [d] = d.entries := by simp [saidIn, said, d]
    rw [hsaid]
    cases hn with
    | move hr => exact h.own hd hw hr hs
    | step s hr h0 =>
      -- the session takes no step while a call of its own is in progress
      obtain ⟨loaded, l, a, ha, hst, -⟩ := h.inCall
      rw [World.getElem?_core] at ha
      obtain ⟨x, hx, rfl⟩ := Option.map_eq_some_iff.1 ha
      have hst' : x.stack = .waitLoad loaded l :: rest := hst
      simp [h0 x hx] at hst'
  · have hsaid : saidIn t [d] = [] := by simp [saidIn, said, d, hm]
    rw [hsaid, List.append_nil]
    exact .inl (h.other hn hm hs)

theorem marks_append (ds ds' : List Deed) : marks (ds ++ ds') = marks ds ++ marks ds' := List.flatMap_append

theorem saidIn_append (t : Nat) (ds ds' : List Deed) : saidIn t (ds ++ ds') = saidIn t ds ++ saidIn t ds' := by
  simp [saidIn]

theorem Course.numbered {w₀ : World} {ds : List Deed} (h : Course su w₀ ds w) (hn : w₀.Numbered) : w.Numbered := by
  induction h with
  | start => exact hn
  | step _ hs ih =>
    obtain ⟨i, ha⟩ := hs.affects
    exact ha.numbered ih

/-- The call returned in some deed, with its two entries and not before its signals had come. -/
def HasReturned (t : Nat) (rest : List Frame) (ds : List Deed) : Prop :=
  ∃ ds₁ d ds₂, ds = ds₁ ++ d :: ds₂ ∧ (∀ d' ∈ ds₁, ¬ Returns t rest d') ∧ Returns t rest d ∧
    saidIn t (ds₁ ++ [d]) = [loadedEntry, shownEntry] ∧ (complete t).Sublist (marks (ds₁ ++ [d]))

/-- A call is at some stage until it returns. -/
theorem Course.stage {w₀ : World} {ds : List Deed} (hd : su.deaf = false) (hw : w₀.Numbered)
    (h₀ : CallStage t rest [] [] w₀) (h : Course su w₀ ds w)
    (hs : ∀ d ∈ ds, d.before.InCall t rest → d.after.Spared t) :
    (CallStage t rest (marks ds) (saidIn t ds) w ∧ ∀ d ∈ ds, ¬ Returns t rest d) ∨ HasReturned t rest ds := by
  induction h with
  | start => exact .inl ⟨h₀, by simp⟩
  | @step ds w v m σ hds hn ih =>
    rcases ih fun d hm => hs d (by simp [hm]) with ⟨hstage, hnot⟩ | ⟨ds₁, d, ds₂, rfl, h1, h2, h3⟩
    · have hspared := hs ⟨⟨m, w, v⟩, σ⟩ (by simp) hstage.inCall
      have hmarks : marks [⟨⟨m, w, v⟩, σ⟩] = Deed.marks ⟨⟨m, w, v⟩, σ⟩ := by simp [marks]
      rcases hstage.step hd (hds.numbered hw) hn hspared with hv | ⟨hback, hes, hc⟩
      · refine .inl ⟨?_, fun d hm => ?_⟩
        · rw [marks_append, saidIn_append, hmarks]
          exact hv
        · rcases List.mem_append.1 hm with hm | hm
          · exact hnot d hm
          · obtain rfl := List.mem_singleton.1 hm
            exact fun hr => hv.inCall.not_back hr.2
      · refine .inr ⟨ds, ⟨⟨m, w, v⟩, σ⟩, [], rfl, hnot, ⟨hstage.inCall, hback⟩, ?_, ?_⟩
        · rw [saidIn_append]
          exact hes
        · rw [marks_append, hmarks]
          exact hc
    · exact .inr ⟨ds₁, d, ds₂ ++ [⟨⟨m, w, v⟩, σ⟩], by simp, h1, h2, h3⟩

/-- In whatever order tasks have their turns: when nobody is ready, a call has returned if and only if a
`load` was fired, then the caller had a turn, and then a `pageshow` was fired. A `pageshow` that comes before
that turn is not waited for any more, be it before the `load` or after it. A call that has returned appended its
two entries, and one that has not only the first, if a `load` was fired. -/
theorem wait_load_returns_iff {p : Page Action} {ds₀ ds : List Deed} (hdeaf : su.deaf = false)
    (hbefore : Course su (.ofPage p) ds₀ w) (hcall : w.Calls t rest) (hasked : (w.runTask su t).Spared t)
    (hrun : Course su (w.runTask su t) ds w') (hspared : ∀ d ∈ ds, d.before.InCall t rest → d.after.Spared t)
    (hidle : w'.Idle) :
    ((∃ d ∈ ds, Returns t rest d) ↔ [.fired loadSignal, .moved t, .fired showSignal].Sublist (marks ds)) ∧
      ((∃ d ∈ ds, Returns t rest d) → ∃ ds₁ d ds₂, ds = ds₁ ++ d :: ds₂ ∧ (∀ d' ∈ ds₁, ¬ Returns t rest d') ∧
        Returns t rest d ∧ saidIn t (ds₁ ++ [d]) = [loadedEntry, shownEntry]) ∧
      ((∀ d ∈ ds, ¬ Returns t rest d) → w'.InCall t rest ∧
        saidIn t ds = if .fired loadSignal ∈ marks ds then [loadedEntry] else []) := by
  have hw := hbefore.numbered (World.numbered_ofPage p)
  obtain ⟨l, hat, hl, -⟩ := calls_listen hdeaf hw hcall.stack hasked
  have h₀ : CallStage t rest [] [] (w.runTask su t) := .loading false hat hl (by simp) (by simp [noted]) rfl
  have hw₁ : (w.runTask su t).Numbered := (World.Affects.runTask su hcall.running).numbered hw
  rcases hrun.stage hdeaf hw₁ h₀ hspared with ⟨hstage, hnot⟩ | ⟨ds₁, d, ds₂, rfl, h1, h2, h3, h4⟩
  · have hnone : ¬ ∃ d ∈ ds, Returns t rest d := by simpa using hnot
    have hin := hstage.inCall
    suffices h : ¬ (complete t).Sublist (marks ds) ∧
        saidIn t ds = if .fired loadSignal ∈ marks ds then [loadedEntry] else [] from
      ⟨iff_of_false hnone h.1, fun hr => absurd hr hnone, fun _ => ⟨hin, h.2⟩⟩
    cases hstage with
    | loading heard _ hl hload hno hes =>
      have hb : heard ≠ true := fun hb => hidle.not_awake t (hl.awake hb)
      exact ⟨mt noted_of_complete hno, by rw [hes, if_neg (mt hload.2 hb)]⟩
    | loaded _ hr _ _ _ => simp [hidle.1] at hr
    | showing heard _ hl hno hshow hes =>
      have hb : heard ≠ true := fun hb => hidle.not_awake t (hl.awake hb)
      exact ⟨mt hshow.2 hb, by rw [hes, if_pos (hno.subset (List.mem_cons_self ..))]⟩
  · have hsome : ∃ d' ∈ ds₁ ++ d :: ds₂, Returns t rest d' := ⟨d, by simp, h2⟩
    refine ⟨iff_of_true hsome ?_, fun _ => ⟨ds₁, d, ds₂, rfl, h1, h2, h3⟩, fun hno => absurd hsome (by simpa using hno)⟩
    have hm : marks (ds₁ ++ d :: ds₂) = marks (ds₁ ++ [d]) ++ marks ds₂ := by
      rw [← marks_append]
      simp
    rw [hm]
    exact h4.trans (List.sublist_append_left _ _)

namespace Demo

/-- A task waits for the page to load, and the page is shown twice: at once, and again a while later. -/
def shownTwice : Session := .ofSteps (.ofPage page) [
  .spawn [.waitLoad, .info "done"] 0,
  .sleep 10,
  .page (.fire .frame "load"),
  .page (.fire .window "pageshow"),
  .sleep 10,
  .page (.fire .window "pageshow"),
  .sleep 10]

/-- The task is about to ask the page for its first listener. -/
def calling : Session := shownTwice.run setup 5

def listening : Session := calling.run setup 1

def afterCall : List Frame := [.steps (.task 0) [] (some .waitLoad) [.info "done"]]

/-- The first time the page is shown goes unheard, and the second time ends the call. -/
theorem wait_load_shown_twice :
    calling.world.Calls 1 afterCall ∧ (listening.run setup 15).world.Idle ∧ (listening.run setup 27).world.Idle ∧
      (∀ d ∈ listening.deedsOf setup 15, ¬ Returns 1 afterCall d) ∧
      saidIn 1 (listening.deedsOf setup 15) = [loadedEntry] ∧
      ∃ d ∈ listening.deedsOf setup 27, Returns 1 afterCall d := by
  have hcalls : calling.world.Calls 1 afterCall := ⟨rfl, _, rfl, rfl, rfl, rfl⟩
  have hsound : shownTwice.Sound := Session.sound_ofSteps page _
  have hpatience : setup.patience = none := rfl
  obtain ⟨hbefore, hcalling⟩ := Session.course hpatience hsound 5
  have hlistening : listening.Sound := (Session.course hpatience hcalling 1).2
  have hrun (n : Nat) : Course setup (calling.world.runTask setup 1) (listening.deedsOf setup n)
      (listening.run setup n).world := (Session.course hpatience hlistening n).1
  have hasked : (calling.world.runTask setup 1).Spared 1 := by decide +kernel
  have hidle₁ : (listening.run setup 15).world.Idle := by decide +kernel
  have hidle₂ : (listening.run setup 27).world.Idle := by decide +kernel
  have hspared₁ : ∀ d ∈ listening.deedsOf setup 15, d.after.Spared 1 := by decide +kernel
  have hspared₂ : ∀ d ∈ listening.deedsOf setup 27, d.after.Spared 1 := by decide +kernel
  have unheard := wait_load_returns_iff rfl hbefore hcalls hasked (hrun 15) (fun d hd _ => hspared₁ d hd) hidle₁
  have heard := wait_load_returns_iff rfl hbefore hcalls hasked (hrun 27) (fun d hd _ => hspared₂ d hd) hidle₂
  have hnot : ∀ d ∈ listening.deedsOf setup 15, ¬ Returns 1 afterCall d := by
    have h := mt unheard.1.1 (by decide +kernel)
    simpa using h
  refine ⟨hcalls, hidle₁, hidle₂, hnot, (unheard.2.2 hnot).2.trans ?_, heard.1.2 (by decide +kernel)⟩
  exact if_pos (by decide +kernel)

end Demo

end PageTest
