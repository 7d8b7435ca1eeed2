import PageTest.Proofs.Signals.OneShot

/-! The two ends of a listener. It is enough for a page to keep sending ends: one for every listener that may still be
completed. A signal uses up those that lead to it, and those that lead to nobody any more are thrown away when the next
one is added. So every listener is completed once, by the first signal that it waits for. -/

namespace PageTest

/-- The receiving ends, and the sending ends that are kept with where they lead to and what for, oldest first. -/
structure Switchboard where
  receivers : List ListenerState
  senders : List (Nat × Signal)

namespace Switchboard

/-- A new pair of ends. What leads to a receiving end that was given up is not kept. -/
def once (σ : Signal) (b : Switchboard) : Switchboard where
  receivers := b.receivers ++ [.waiting]
  senders := b.senders.filter (fun x => b.receivers[x.1]? ≠ some .dropped) ++ [(b.receivers.length, σ)]

/-- Sends to one after another and gives those that received it. -/
def send : List Nat → List ListenerState → List Nat × List ListenerState
  | [], rs => ([], rs)
  | i :: rest, rs =>
    if rs[i]? = some .waiting then (i :: (send rest (rs.set i .fired)).1, (send rest (rs.set i .fired)).2)
    else send rest rs

/-- Uses the sending ends of a signal up and counts those that received it. -/
def fire (σ : Signal) (b : Switchboard) : Nat × Switchboard :=
  let (hits, rest) := b.senders.partition (·.2 == σ)
  let (woken, receivers) := send (hits.map (·.1)) b.receivers
  (woken.length, ⟨receivers, rest⟩)

/-- Gives a receiving end up. -/
def drop (i : Nat) (b : Switchboard) : Switchboard :=
  { b with receivers := b.receivers.modify i fun r => if r = .waiting then .dropped else r }

/-- What the ends are after an edit of a page. -/
def follow {α : Type} (b : Switchboard) : Page.Edit α → Switchboard
  | .listen target event => b.once ⟨target, event⟩
  | .fire target event => (b.fire ⟨target, event⟩).2
  | .unlisten i => b.drop i
  | _ => b

/-- The ends at the end of a history. -/
def following {α : Type} (es : List (Page.Edit α)) : Switchboard := es.foldl follow ⟨[], []⟩

/-! Sending -/

theorem send_spec {is : List Nat} (hd : is.Nodup) (rs : List ListenerState) :
    (send is rs).1 = is.filter (fun i => rs[i]? = some .waiting) ∧
      ∀ j, (send is rs).2[j]? = if j ∈ is ∧ rs[j]? = some .waiting then some .fired else rs[j]? := by
  induction is generalizing rs with
  | nil => simp [send]
  | cons i rest ih =>
    obtain ⟨hi, hrest⟩ := List.nodup_cons.1 hd
    unfold send
    split_ifs with hw
    · obtain ⟨hwoken, hafter⟩ := ih hrest (rs.set i .fired)
      refine ⟨?_, fun j => ?_⟩
      · rw [hwoken, List.filter_cons_of_pos (by simpa using hw)]
        -- no other place in the list is the one that was just sent to
        refine congrArg (List.cons i) (List.filter_congr fun j hj => ?_)
        have hij : i ≠ j := by
          rintro rfl
          exact hi hj
        rw [List.getElem?_set_ne hij]
      · rw [hafter]
        by_cases hij : i = j
        · subst hij
          have hlt := (List.getElem?_eq_some_iff.1 hw).1
          rw [if_neg (fun hin => hi hin.1), if_pos ⟨List.mem_cons_self, hw⟩, List.getElem?_set_self hlt]
        · simp [List.getElem?_set_ne hij, Ne.symm hij]
    · obtain ⟨hwoken, hafter⟩ := ih hrest rs
      refine ⟨?_, fun j => ?_⟩
      · rw [hwoken, List.filter_cons_of_neg (by simpa using hw)]
      · rw [hafter]
        by_cases hij : j = i
        · subst hij
          simp [hw]
        · simp [hij]

/-! Both views of a page -/

variable {α : Type} {b : Switchboard} {p q : Page α} {e : Page.Edit α} {es : List (Page.Edit α)}

/-- The ends are those of the page's listeners. A sending end is kept for every listener that waits. -/
structure Serves (b : Switchboard) (p : Page α) : Prop where
  receivers : b.receivers = p.listeners.map (·.state)
  ordered : b.senders.Pairwise (·.1 < ·.1)
  unused : ∀ x ∈ b.senders, ∃ a, p.listeners[x.1]? = some a ∧ a.signal = x.2 ∧ a.state ≠ .fired
  kept : ∀ i a, p.listeners[i]? = some a → a.state = .waiting → (i, a.signal) ∈ b.senders

namespace Serves

theorem getElem?_receivers (h : b.Serves p) (i : Nat) : b.receivers[i]? = p.listenerState i := by
  rw [h.receivers, List.getElem?_map, Page.listenerState]

theorem length (h : b.Serves p) : b.receivers.length = p.listeners.length := by rw [h.receivers, List.length_map]

theorem same (h : b.Serves p) (hl : q.listeners = p.listeners) : b.Serves q where
  receivers := by rw [hl, h.receivers]
  ordered := h.ordered
  unused := by rw [hl]; exact h.unused
  kept := by rw [hl]; exact h.kept

theorem once (h : b.Serves p) (target : SignalTarget) (event : String) :
    (b.once ⟨target, event⟩).Serves (p.listen target event).2 where
  receivers := by simp [Switchboard.once, Page.listen, h.receivers]
  ordered := by
    refine List.pairwise_append.2 ⟨h.ordered.filter _, List.pairwise_singleton .., fun x hx y hy => ?_⟩
    obtain ⟨a, ha, -⟩ := h.unused x (List.mem_filter.1 hx).1
    obtain rfl := List.mem_singleton.1 hy
    exact h.length ▸ (List.getElem?_eq_some_iff.1 ha).1
  unused x hx := by
    rcases List.mem_append.1 hx with hx | hx
    · obtain ⟨a, ha, hs⟩ := h.unused x (List.mem_filter.1 hx).1
      exact ⟨a, by simp [Page.listen, List.getElem?_append_left (List.getElem?_eq_some_iff.1 ha).1, ha], hs⟩
    · obtain rfl := List.mem_singleton.1 hx
      exact ⟨⟨target, event, .waiting⟩, by simp [Page.listen, h.length], rfl, by simp⟩
  kept i a ha hw := by
    simp only [Page.listen, List.getElem?_append] at ha
    split_ifs at ha with hlt
    · refine List.mem_append_left _ (List.mem_filter.2 ⟨h.kept i a ha hw, ?_⟩)
      simp [h.getElem?_receivers, Page.listenerState, ha, hw]
    · rw [List.getElem?_singleton] at ha
      split_ifs at ha with hi
      obtain rfl := Option.some.inj ha
      obtain rfl : i = b.receivers.length := by
        rw [h.length]
        omega
      exact List.mem_append_right _ (List.mem_singleton_self _)

theorem drop (h : b.Serves p) (i : Nat) : (b.drop i).Serves (p.dropListener i) where
  receivers := by
    refine List.ext_getElem? fun j => ?_
    by_cases hij : i = j
    · subst hij
      cases ha : p.listeners[i]? with
      | none => simp [Switchboard.drop, Page.dropListener, h.receivers, ha]
      | some a => by_cases hw : a.state = .waiting <;> simp [Switchboard.drop, Page.dropListener, h.receivers, ha, hw]
    · simp [Switchboard.drop, Page.dropListener, h.receivers, hij]
  ordered := h.ordered
  unused x hx := by
    obtain ⟨a, ha, hs, hf⟩ := h.unused x hx
    by_cases hix : i = x.1
    · refine ⟨if a.state = .waiting then { a with state := .dropped } else a, by simp [Page.dropListener, hix, ha], ?_⟩
      split_ifs
      · exact ⟨hs, by simp⟩
      · exact ⟨hs, hf⟩
    · exact ⟨a, by simp [Page.dropListener, hix, ha], hs, hf⟩
  kept j a ha hw := by
    simp only [Page.dropListener, List.getElem?_modify] at ha
    obtain ⟨c, hc, rfl⟩ := Option.map_eq_some_iff.1 ha
    split_ifs at hw ⊢
    · exact h.kept j c hc hw
    · exact h.kept j c hc hw

/-- A signal finds those whose sending ends are used and received. -/
theorem send_hits (h : b.Serves p) (target : SignalTarget) (event : String) :
    let is := (b.senders.filter (·.2 == ⟨target, event⟩)).map (·.1)
    is.Nodup ∧ (send is b.receivers).1 = (p.fire target event).1 ∧
      ∀ i, i ∈ is ∧ b.receivers[i]? = some .waiting ↔ i ∈ (p.fire target event).1 := by
  intro is
  have hordered : is.Pairwise (· < ·) := List.pairwise_map.2 (h.ordered.filter _)
  have hmem (i : Nat) : i ∈ is ∧ b.receivers[i]? = some .waiting ↔ i ∈ (p.fire target event).1 := by
    rw [Page.mem_fire, h.getElem?_receivers]
    simp only [is, List.mem_map, List.mem_filter, beq_iff_eq]
    constructor
    · rintro ⟨⟨x, ⟨hx, hσ⟩, rfl⟩, hw⟩
      obtain ⟨a, ha, hs, -⟩ := h.unused x hx
      exact ⟨a, ha, by simpa [Page.listenerState, ha] using hw, hs.trans hσ⟩
    · rintro ⟨a, ha, hw, hs⟩
      exact ⟨⟨(i, a.signal), ⟨h.kept i a ha hw, hs⟩, rfl⟩, by simp [Page.listenerState, ha, hw]⟩
  have hnodup : is.Nodup := hordered.imp fun hlt => hlt.ne
  refine ⟨hnodup, ?_, hmem⟩
  rw [(send_spec hnodup _).1]
  have hsorted : (p.fire target event).1.Pairwise (· < ·) := List.pairwise_lt_range.filter _
  have hperm : (is.filter fun i => b.receivers[i]? = some .waiting).Perm (p.fire target event).1 := by
    rw [List.perm_ext_iff_of_nodup (hnodup.filter _) (Page.nodup_fire _ _ _)]
    intro i
    rw [List.mem_filter, ← hmem, decide_eq_true_iff]
  exact hperm.eq_of_pairwise (fun i j _ _ hij hji => absurd hij hji.asymm) (hordered.filter _) hsorted

theorem fire (h : b.Serves p) (target : SignalTarget) (event : String) :
    (b.fire ⟨target, event⟩).1 = (p.fire target event).1.length ∧
      (b.fire ⟨target, event⟩).2.Serves (p.fire target event).2 := by
  obtain ⟨hnodup, hwoken, hmem⟩ := h.send_hits target event
  simp only [Switchboard.fire, List.partition_eq_filter_filter]
  refine ⟨congrArg List.length hwoken, ?_, h.ordered.filter _, ?_, ?_⟩
  · refine List.ext_getElem? fun i => ?_
    rw [(send_spec hnodup _).2, List.getElem?_map]
    refine Eq.trans ?_ (Page.listenerState_fire p target event i).symm
    rw [if_congr (hmem i) rfl rfl, h.getElem?_receivers]
  · intro x hx
    obtain ⟨hx, hσ⟩ := List.mem_filter.1 hx
    obtain ⟨a, ha, hs, hf⟩ := h.unused x hx
    have hcalled : ¬ Page.isCalled target event a = true := by
      rw [Page.isCalled_iff, hs]
      rintro ⟨-, heq⟩
      simp [heq] at hσ
    exact ⟨a, by rw [Page.getElem?_fire, ha, Option.map_some, if_neg hcalled], hs, hf⟩
  · intro i a ha hw
    rw [Page.getElem?_fire] at ha
    obtain ⟨c, hc, rfl⟩ := Option.map_eq_some_iff.1 ha
    split_ifs at hw ⊢ with hcalled
    refine List.mem_filter.2 ⟨h.kept i c hc hw, ?_⟩
    have hs : c.signal ≠ ⟨target, event⟩ := fun hs => hcalled (Page.isCalled_iff.2 ⟨hw, hs⟩)
    simpa using hs

end Serves

theorem serves_follow (h : b.Serves p) (he : p.edit e = .ok q) : (b.follow e).Serves q := by
  cases e with
  | create | display | value | checked | remove => exact h.same (Page.beside_of_edit rfl he).2.1
  | handler i kind action =>
    obtain rfl := Except.ok.inj he
    exact h.same rfl
  | record d =>
    obtain ⟨⟨r, actions⟩, hd, rfl⟩ := Page.map_eq_ok he
    obtain rfl := Page.dispatch_eq_ok hd
    exact h.same rfl
  | listen target event =>
    obtain rfl := Except.ok.inj he
    exact h.once target event
  | fire target event =>
    obtain rfl := Except.ok.inj he
    exact (h.fire target event).2
  | unlisten i =>
    obtain rfl := Except.ok.inj he
    exact h.drop i

theorem serves_following (h : Page.empty.Edited es p) : (following es).Serves p := by
  induction h with
  | start => exact ⟨rfl, .nil, by simp [following], by simp [Page.empty]⟩
  | step _ he ih =>
    rw [following, List.foldl_append]
    exact serves_follow ih he

/-- The ends are where the listeners are, and none of those who wait is without a sending end. -/
theorem following_receivers (h : Page.empty.Edited es p) (i : Nat) :
    (following es).receivers[i]? = p.listenerState i ∧
      (p.listenerState i = some .waiting → ∃ σ, (i, σ) ∈ (following es).senders) := by
  have hserves := serves_following h
  refine ⟨hserves.getElem?_receivers i, fun hi => ?_⟩
  obtain ⟨a, ha, hw⟩ := Option.map_eq_some_iff.1 hi
  exact ⟨a.signal, hserves.kept i a ha hw⟩

/-- With the sending ends alone every signal is received as often, and by those who wait for it. -/
theorem following_agrees (h : Page.empty.Edited es p) (target : SignalTarget) (event : String) :
    ((following es).fire ⟨target, event⟩).1 = (p.fire target event).1.length ∧
      ∀ i, ((following es).fire ⟨target, event⟩).2.receivers[i]? = (p.fire target event).2.listenerState i := by
  obtain ⟨hcount, hafter⟩ := (serves_following h).fire target event
  exact ⟨hcount, hafter.getElem?_receivers⟩

end Switchboard

open Page

/-- While nobody gives it up, a listener waits until its signal is fired for the first time after it, and is complete
from then on. A signal completes those that are pending, counts each of them once and leaves the others as they are.
The sending ends that are kept come to the same. -/
theorem listeners_once {es : List (Edit Action)} {s : Scene} (h : Page.empty.Edited es s.page) :
    (∀ before target event after, es = before ++ .listen target event :: after →
      (listened before).length ∉ givenUp after →
      s.page.listenerState (listened before).length =
          some (if ⟨target, event⟩ ∈ fired after then .fired else .waiting) ∧
        ∀ i, s.slots[i]? = some (some (listened before).length) →
          s.listenerReport i = if ⟨target, event⟩ ∈ fired after then .fired else .pending) ∧
    (∀ target event, ∃ ls : List Nat, (s.fire target event).2 = .value (.count ls.length) ∧ ls.Nodup ∧
      (∀ l, l ∈ ls ↔ Pending es ⟨target, event⟩ l) ∧
      (∀ l, (s.fire target event).1.page.listenerState l = if l ∈ ls then some .fired else s.page.listenerState l) ∧
      ((s.fire target event).1.fire target event).2 = .value (.count 0) ∧
      ((Switchboard.following es).fire ⟨target, event⟩).1 = ls.length ∧
      ∀ i, ((Switchboard.following es).fire ⟨target, event⟩).2.receivers[i]? =
        (s.fire target event).1.page.listenerState i) ∧
    (∀ i, (Switchboard.following es).receivers[i]? = s.page.listenerState i ∧
      (s.page.listenerState i = some .waiting → ∃ σ, (i, σ) ∈ (Switchboard.following es).senders)) ∧
    ∀ now depth target step, ∃ es', Page.empty.Edited (es ++ es') (s.perform now depth target step).1.page := by
  refine ⟨?_, ?_, Switchboard.following_receivers h,
    fun now depth target step => Scene.edited_perform h now depth target step⟩
  · rintro before target event after rfl hkept
    have hstate : s.page.listenerState (listened before).length =
        some (if ⟨target, event⟩ ∈ fired after then .fired else .waiting) := by
      rw [listenerState, h.listener, Option.map_some, settled_kept hkept, Listener.after]
      by_cases hf : (⟨target, event⟩ : Signal) ∈ fired after <;> simp [Listener.signal, hf]
    refine ⟨hstate, fun i hi => ?_⟩
    simp only [Scene.listenerReport, hi, hstate]
    split_ifs <;> rfl
  · intro target event
    refine ⟨(s.page.fire target event).1, rfl, nodup_fire _ _ _, fun l => h.mem_fire_iff,
      listenerState_fire s.page target event, ?_, Switchboard.following_agrees h target event⟩
    simp [Scene.fire, fire_again]

/-- Four listeners: one was completed, one waits for another signal, one was given up, and one came after the signal. -/
def Demo.attentive : Scene := .ofPage
  { elements := []
    ids := []
    handlers := []
    listeners := [⟨.frame, "load", .fired⟩, ⟨.window, "pageshow", .waiting⟩, ⟨.frame, "load", .dropped⟩,
      ⟨.frame, "load", .waiting⟩]
    dispatched := [] }

/-- Only the last one hears the signal when it is fired again. -/
theorem listeners_once_attentive : Demo.attentive.page.listenerState 0 = some .fired ∧
    Demo.attentive.page.listenerState 1 = some .waiting ∧
    (Demo.attentive.fire .frame "load").2 = .value (.count 1) ∧
    (Demo.attentive.fire .frame "load").1.page.listenerState 1 = some .waiting ∧
    (Demo.attentive.fire .frame "load").1.page.listenerState 3 = some .fired ∧
    ((Demo.attentive.fire .frame "load").1.fire .frame "load").2 = .value (.count 0) := by
  have hedits : Page.empty.Edited [.listen .frame "load", .listen .window "pageshow", .listen .frame "load",
      .unlisten 2, .fire .frame "load", .listen .frame "load"] Demo.attentive.page := Page.edited_of_foldlM rfl
  obtain ⟨hstate, hfire, -⟩ := listeners_once hedits
  obtain ⟨ls, hcount, -, hpending, hafter, hagain, -⟩ := hfire .frame "load"
  have hone : (Demo.attentive.fire .frame "load").2 = .value (.count 1) := rfl
  have hlast : 3 ∈ ls := (hpending 3).2 ⟨[.listen .frame "load", .listen .window "pageshow", .listen .frame "load",
      .unlisten 2, .fire .frame "load"], [], rfl, rfl, by decide, by decide⟩
  obtain rfl : ls = [3] := by
    rw [hone] at hcount
    obtain ⟨l, rfl⟩ := List.length_eq_one_iff.1 (Reply.count.inj (Outcome.value.inj hcount)).symm
    rw [List.mem_singleton.1 hlast]
  refine ⟨?_, ?_, hone, ?_, hafter 3, hagain⟩
  · exact (hstate [] .frame "load" _ rfl (by decide)).1.trans rfl
  · exact (hstate [.listen .frame "load"] .window "pageshow" _ rfl (by decide)).1.trans rfl
  · exact (hafter 1).trans rfl

end PageTest
