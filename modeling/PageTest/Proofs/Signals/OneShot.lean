import PageTest.Proofs.Signals.Fired

/-! One-time listeners in the history of a page. A listener is known by how many came before it; what becomes of it
is decided by the first edit after it that fires its signal or gives it up. -/

namespace PageTest.Page

variable {α : Type} {p q : Page α} {e : Edit α} {es before after : List (Edit α)} {a : Listener} {l : Nat}

namespace Edit

/-- The signal that somebody starts to listen for. -/
def listened? : Edit α → Option Signal
  | listen target event => some ⟨target, event⟩
  | _ => none

/-- The signal that is fired. -/
def fired? : Edit α → Option Signal
  | fire target event => some ⟨target, event⟩
  | _ => none

/-- The listener that is given up. -/
def givenUp? : Edit α → Option Nat
  | unlisten i => some i
  | _ => none

/-- What listener `l` is after an edit. -/
def meet (l : Nat) (a : Listener) : Edit α → Listener
  | fire target event => a.after [⟨target, event⟩]
  | unlisten i => if i = l ∧ a.state = .waiting then { a with state := .dropped } else a
  | _ => a

end Edit

/-- The signals listened for, one for each listener. -/
def listened (es : List (Edit α)) : List Signal := es.filterMap Edit.listened?

def fired (es : List (Edit α)) : List Signal := es.filterMap Edit.fired?

def givenUp (es : List (Edit α)) : List Nat := es.filterMap Edit.givenUp?

/-- What listener `l` is after some edits. -/
def settled (l : Nat) (es : List (Edit α)) (a : Listener) : Listener := es.foldl (Edit.meet l) a

/-! Single edits -/

theorem isCalled_iff {target : SignalTarget} {event : String} :
    isCalled target event a = true ↔ a.state = .waiting ∧ a.signal = ⟨target, event⟩ := by
  simp [isCalled, Listener.signal, and_assoc]

theorem listeners_of_edit (he : p.edit e = .ok q) :
    q.listeners.length = p.listeners.length + (listened [e]).length ∧
      ∀ l a, p.listeners[l]? = some a → q.listeners[l]? = some (e.meet l a) := by
  cases e with
  | create | display | value | checked | remove =>
    rw [(beside_of_edit rfl he).2.1]
    exact ⟨rfl, fun l a ha => ha⟩
  | handler h kind action =>
    obtain rfl := Except.ok.inj he
    exact ⟨rfl, fun l a ha => ha⟩
  | record d =>
    obtain ⟨⟨r, actions⟩, hd, rfl⟩ := map_eq_ok he
    obtain rfl := dispatch_eq_ok hd
    exact ⟨rfl, fun l a ha => ha⟩
  | listen target event =>
    obtain rfl := Except.ok.inj he
    refine ⟨by simp [listen, listened, Edit.listened?], fun l a ha => ?_⟩
    have hlt := (List.getElem?_eq_some_iff.1 ha).1
    simp [listen, List.getElem?_append_left hlt, ha, Edit.meet]
  | fire target event =>
    obtain rfl := Except.ok.inj he
    refine ⟨by simp [fire, listened, Edit.listened?], fun l a ha => ?_⟩
    simp only [fire, List.getElem?_map, ha, Option.map_some, isCalled_iff, Edit.meet, Listener.after,
      List.mem_singleton]
  | unlisten i =>
    obtain rfl := Except.ok.inj he
    refine ⟨by simp [dropListener, listened, Edit.listened?], fun l a ha => ?_⟩
    by_cases hi : i = l
    · simp [dropListener, Edit.meet, hi, ha]
    · simp [dropListener, Edit.meet, hi, ha]

theorem mem_fire {target : SignalTarget} {event : String} : l ∈ (p.fire target event).1 ↔
    ∃ a, p.listeners[l]? = some a ∧ a.state = .waiting ∧ a.signal = ⟨target, event⟩ := by
  simp only [fire, List.mem_filter, List.mem_range]
  cases ha : p.listeners[l]? with
  | none => simp
  | some a =>
    have hlt := (List.getElem?_eq_some_iff.1 ha).1
    simp [hlt, isCalled_iff]

theorem meet_signal : (e.meet l a).signal = a.signal := by
  cases e with
  | fire target event =>
    simp only [Edit.meet, Listener.after]
    split_ifs <;> rfl
  | unlisten i =>
    simp only [Edit.meet]
    split_ifs <;> rfl
  | _ => rfl

/-- A listener waits on if its signal is not fired and it is not given up. -/
theorem meet_waiting : (e.meet l a).state = .waiting ↔
    a.state = .waiting ∧ e.givenUp? ≠ some l ∧ e.fired? ≠ some a.signal := by
  cases e with
  | fire target event =>
    by_cases hs : a.signal = ⟨target, event⟩
    · by_cases hw : a.state = .waiting <;> simp [Edit.meet, Listener.after, Edit.fired?, hs, hw]
    · simp [Edit.meet, Listener.after, Edit.fired?, Edit.givenUp?, hs, Ne.symm hs]
  | unlisten i =>
    by_cases hi : i = l
    · by_cases hw : a.state = .waiting <;> simp [Edit.meet, Edit.givenUp?, hi, hw]
    · simp [Edit.meet, Edit.fired?, Edit.givenUp?, hi]
  | _ => simp [Edit.meet, Edit.givenUp?, Edit.fired?]

theorem meet_kept (h : l ∉ givenUp [e]) : e.meet l a = a.after (fired [e]) := by
  cases e with
  | unlisten i =>
    have hi : i ≠ l := fun hi => h (by simp [givenUp, Edit.givenUp?, hi])
    have hmeet : (Edit.unlisten i).meet (α := α) l a = a := by simp [Edit.meet, hi]
    exact hmeet.trans Listener.after_nil.symm
  | fire target event => rfl
  | _ => exact Listener.after_nil.symm

/-! Histories -/

theorem settled_signal : (settled l es a).signal = a.signal := by
  induction es generalizing a with
  | nil => rfl
  | cons e es ih => exact ih.trans meet_signal

theorem settled_waiting : (settled l es a).state = .waiting ↔
    a.state = .waiting ∧ l ∉ givenUp es ∧ a.signal ∉ fired es := by
  induction es generalizing a with
  | nil => simp [settled, givenUp, fired]
  | cons e es ih =>
    have hrest : (settled l (e :: es) a).state = .waiting ↔
        (e.meet l a).state = .waiting ∧ l ∉ givenUp es ∧ (e.meet l a).signal ∉ fired es := ih
    rw [hrest, meet_waiting, meet_signal]
    cases hg : e.givenUp? <;> cases hf : e.fired? <;>
      simp [givenUp, fired, hg, hf, and_assoc, eq_comm] <;> tauto

/-- While it is not given up, only signals matter to a listener. -/
theorem settled_kept (h : l ∉ givenUp es) : settled l es a = a.after (fired es) := by
  induction es generalizing a with
  | nil => exact Listener.after_nil.symm
  | cons e es ih =>
    have hsplit : givenUp (e :: es) = givenUp [e] ++ givenUp es := List.filterMap_append (l := [e])
    rw [hsplit, List.mem_append, not_or] at h
    calc settled l (e :: es) a = (e.meet l a).after (fired es) := ih h.2
      _ = (a.after (fired [e])).after (fired es) := by rw [meet_kept h.1]
      _ = a.after (fired [e] ++ fired es) := Listener.after_append
      _ = a.after (fired (e :: es)) := by rw [fired, fired, fired, ← List.filterMap_append]; rfl

theorem Edited.listeners (h : p.Edited es q) : q.listeners.length = p.listeners.length + (listened es).length ∧
    ∀ l a, p.listeners[l]? = some a → q.listeners[l]? = some (settled l es a) := by
  induction h with
  | start => exact ⟨rfl, fun l a ha => ha⟩
  | step _ he ih =>
    obtain ⟨hlength, hmeet⟩ := listeners_of_edit he
    refine ⟨?_, fun l a ha => ?_⟩
    · rw [hlength, ih.1, listened, listened, listened, List.filterMap_append, List.length_append]
      omega
    · rw [settled, List.foldl_append]
      exact hmeet l _ (ih.2 l a ha)

/-- A listener in its history. -/
theorem Edited.listener {target : SignalTarget} {event : String}
    (h : Page.empty.Edited (before ++ .listen target event :: after) p) :
    p.listeners[(listened before).length]? =
      some (settled (listened before).length after ⟨target, event, .waiting⟩) := by
  obtain ⟨m, hm, hafter⟩ := h.split
  have hlisten : m.Edited ([.listen target event] ++ after) p := hafter
  obtain ⟨m', hm', hrest⟩ := hlisten.split
  have hnew : m.listeners.length = (listened before).length := by
    rw [hm.listeners.1]
    exact Nat.zero_add _
  obtain rfl : (m.listen target event).2 = m' := Except.ok.inj hm'.foldlM
  refine hrest.listeners.2 _ _ ?_
  simp [listen, ← hnew]

/-- Every listener has a history. -/
theorem exists_listen (hl : l < (listened es).length) : ∃ before target event after,
    es = before ++ .listen target event :: after ∧ (listened before).length = l := by
  induction es generalizing l with
  | nil => simp [listened] at hl
  | cons e es ih =>
    cases he : e.listened? with
    | none =>
      obtain ⟨before, target, event, after, rfl, hb⟩ := ih (l := l) (by simpa [listened, he] using hl)
      exact ⟨e :: before, target, event, after, rfl, by simpa [listened, he] using hb⟩
    | some σ =>
      cases l with
      | zero =>
        cases e with
        | listen target event => exact ⟨[], target, event, es, rfl, rfl⟩
        | _ => simp [Edit.listened?] at he
      | succ l =>
        obtain ⟨before, target, event, after, rfl, hb⟩ := ih (l := l) (by simpa [listened, he] using hl)
        exact ⟨e :: before, target, event, after, rfl, by simpa [listened, he] using hb⟩

/-! Signals -/

/-- At the end of a history listener `l` is there, waits for the signal and has not been given up. -/
def Pending (es : List (Edit α)) (σ : Signal) (l : Nat) : Prop :=
  ∃ before after, es = before ++ .listen σ.target σ.event :: after ∧ (listened before).length = l ∧
    l ∉ givenUp after ∧ σ ∉ fired after

section

variable (p : Page α) (target : SignalTarget) (event : String)

theorem nodup_fire : (p.fire target event).1.Nodup := List.nodup_range.filter _

theorem getElem?_fire (l : Nat) : (p.fire target event).2.listeners[l]? =
    p.listeners[l]?.map fun a => if isCalled target event a then { a with state := .fired } else a := by
  simp [fire]

theorem listenerState_fire (l : Nat) : (p.fire target event).2.listenerState l =
    if l ∈ (p.fire target event).1 then some .fired else p.listenerState l := by
  unfold listenerState
  rw [getElem?_fire]
  split_ifs with hmem
  · obtain ⟨a, ha, hcalled⟩ := mem_fire.1 hmem
    simp [ha, isCalled_iff.2 hcalled]
  · cases ha : p.listeners[l]? with
    | none => rfl
    | some a =>
      have hcalled : ¬ isCalled target event a = true := fun hc => hmem (mem_fire.2 ⟨a, ha, isCalled_iff.1 hc⟩)
      simp [hcalled]

theorem fire_again : ((p.fire target event).2.fire target event).1 = [] := by
  refine List.eq_nil_iff_forall_not_mem.2 fun l hl => ?_
  obtain ⟨b, hb, hw, hs⟩ := mem_fire.1 hl
  rw [getElem?_fire] at hb
  obtain ⟨a, -, rfl⟩ := Option.map_eq_some_iff.1 hb
  split_ifs at hw hs with hcalled
  exact hcalled (isCalled_iff.2 ⟨hw, hs⟩)

end

/-- A signal completes those that are pending. -/
theorem Edited.mem_fire_iff {target : SignalTarget} {event : String} (h : Page.empty.Edited es p) :
    l ∈ (p.fire target event).1 ↔ Pending es ⟨target, event⟩ l := by
  rw [mem_fire]
  constructor
  · rintro ⟨a, ha, hw, hs⟩
    have hcount : p.listeners.length = (listened es).length := by
      rw [h.listeners.1]
      exact Nat.zero_add _
    -- whatever is listed was listened for at some point, and nothing after that has decided it
    obtain ⟨before, t, ev, after, rfl, rfl⟩ := exists_listen (hcount ▸ (List.getElem?_eq_some_iff.1 ha).1)
    obtain rfl := Option.some.inj (h.listener.symm.trans ha)
    obtain ⟨-, hkept, hfired⟩ := settled_waiting.1 hw
    rw [settled_signal] at hs
    obtain ⟨rfl, rfl⟩ := Signal.mk.inj hs
    exact ⟨before, after, rfl, rfl, hkept, hfired⟩
  · rintro ⟨before, after, rfl, rfl, hkept, hfired⟩
    exact ⟨_, h.listener, settled_waiting.2 ⟨rfl, hkept, hfired⟩, settled_signal⟩

end PageTest.Page
