import PageTest.Proofs.Runs.Census
import PageTest.Proofs.Load.Story

/-! All the frames of a world together: which tickets of the lock their loads hold, and how many run
passes are among them. What holds of these is handed on by the part that each move plays. -/

namespace PageTest

/-! All that tasks are in the middle of -/

def framesOf (ts : List Activity) : List Frame := ts.flatMap (·.stack)

def World.frames (w : World) : List Frame := w.tasks.flatMap (·.stack)

theorem World.framesOf_core (w : World) : framesOf w.core.tasks = w.frames := by
  simp [framesOf, World.frames, World.core, List.flatMap_map, Task.activity]

theorem mem_framesOf {ts : List Activity} {g : Frame} :
    g ∈ framesOf ts ↔ ∃ a ∈ ts, g ∈ a.stack := List.mem_flatMap

theorem modify_append {α : Type} {l l' : List α} {t : Nat} {f : α → α} (h : t < l.length) :
    (l ++ l').modify t f = l.modify t f ++ l' := by
  rw [List.modify_eq_take_cons_drop h, List.modify_eq_take_cons_drop (by simp; omega)]
  simp [List.take_append_of_le_length h.le, List.drop_append_of_le_length (Nat.succ_le_of_lt h), h]

theorem mem_modify {α : Type} {l : List α} {t : Nat} {f : α → α} {a b : α} (ha : l[t]? = some a)
    (h : b ∈ l.modify t f) : b ∈ l ∨ b = f a := by
  obtain ⟨i, hi⟩ := List.mem_iff_getElem?.1 h
  rw [List.getElem?_modify] at hi
  by_cases hit : t = i
  · subst hit
    exact .inr (by simpa [ha, eq_comm] using hi)
  · exact .inl (List.mem_of_getElem? (by simpa [hit] using hi))

/-- The frame on top of one stack against all others, and what it is replaced by. -/
theorem framesOf_modify {ts : List Activity} {t : Nat} {a : Activity} {f : Frame} {rest : List Frame}
    (ha : ts[t]? = some a) (hs : a.stack = f :: rest) :
    ∃ others, (framesOf ts).Perm (f :: others) ∧
      (∀ (fs : List Frame) (ret : Option Outcome),
        (framesOf (ts.modify t (·.put (fs ++ rest) ret))).Perm (fs ++ others)) ∧
      (∀ g ∈ rest, g ∈ others) ∧
      ∀ (i : Nat) (b : Activity), i ≠ t → ts[i]? = some b → ∀ g ∈ b.stack, g ∈ others := by
  obtain ⟨hlt, rfl⟩ := List.getElem?_eq_some_iff.1 ha
  set before := ts.take t with hbefore
  set after := ts.drop (t + 1) with hafter
  have hts : ts = before ++ ts[t] :: after := by simp [hbefore, hafter]
  refine ⟨rest ++ (framesOf before ++ framesOf after), ?_, fun fs ret => ?_,
    fun g hg => List.mem_append_left _ hg, fun i b hi hb g hg => ?_⟩
  · calc framesOf ts = framesOf before ++ ((f :: rest) ++ framesOf after) := by
          conv_lhs => rw [hts]
          simp [framesOf, hs]
      _ |>.Perm ((f :: rest) ++ (framesOf before ++ framesOf after)) := by
          simpa using List.perm_append_comm_assoc (framesOf before) (f :: rest) (framesOf after)
  · have hm : ts.modify t (·.put (fs ++ rest) ret) = before ++ ts[t].put (fs ++ rest) ret :: after :=
      List.modify_eq_take_cons_drop hlt
    calc framesOf (ts.modify t (·.put (fs ++ rest) ret))
        = framesOf before ++ ((fs ++ rest) ++ framesOf after) := by
          rw [hm]; simp [framesOf, Activity.put]
      _ |>.Perm ((fs ++ rest) ++ (framesOf before ++ framesOf after)) :=
          List.perm_append_comm_assoc _ _ _
      _ = fs ++ (rest ++ (framesOf before ++ framesOf after)) := List.append_assoc ..
  · refine List.mem_append_right _ ?_
    have hb' : (before ++ ts[t] :: after)[i]? = some b := hts ▸ hb
    have hlen : before.length = t := by simp [hbefore]; omega
    rcases Nat.lt_or_ge i t with h | h
    · rw [List.getElem?_append_left (by omega)] at hb'
      exact List.mem_append_left _ (mem_framesOf.2 ⟨b, List.mem_of_getElem? hb', hg⟩)
    · rw [List.getElem?_append_right (by omega), hlen] at hb'
      obtain ⟨n, hn⟩ : ∃ n, i - t = n + 1 := ⟨i - t - 1, by omega⟩
      rw [hn, List.getElem?_cons_succ] at hb'
      exact List.mem_append_right _ (mem_framesOf.2 ⟨b, List.mem_of_getElem? hb', hg⟩)

/-! Tickets -/

/-- No two loads hold one ticket, and those that were let through hold the one that has the lock. -/
structure Ticketed (fs : List Frame) (l : Lock) : Prop where
  nodup : (tickets fs).Nodup
  drawn : ∀ k ∈ tickets fs, k < l.tickets
  inside : ∀ f ∈ fs, ∀ k, f.inside? = some k → l.holder = some k

variable {su : Setup} {w v : World} {f : Frame} {others : List Frame} {m : Move}

theorem tickets_cons : tickets (f :: others) = tickets [f] ++ tickets others := by
  simp [tickets, List.filterMap_cons]; split <;> rfl

theorem tickets_append {fs gs : List Frame} : tickets (fs ++ gs) = tickets fs ++ tickets gs :=
  List.filterMap_append ..

theorem mem_tickets_of_inside {k : Nat} (hf : f ∈ others) (hk : f.inside? = some k) : k ∈ tickets others :=
  List.mem_filterMap.2 ⟨f, hf, Frame.ticket?_of_inside hk⟩

namespace Ticketed

variable {l l' : Lock} {fs gs : List Frame}

theorem perm (h : Ticketed fs l) (hp : fs.Perm gs) : Ticketed gs l where
  nodup := (hp.filterMap Frame.ticket?).nodup_iff.1 h.nodup
  drawn k hk := h.drawn k ((hp.filterMap Frame.ticket?).mem_iff.2 hk)
  inside g hg := h.inside g (hp.mem_iff.2 hg)

theorem append_plain (h : Ticketed fs l) (hg : ∀ g ∈ gs, g.isPlain = true) : Ticketed (fs ++ gs) l where
  nodup := by rw [tickets_append, tickets_of_plain hg, List.append_nil]; exact h.nodup
  drawn := by rw [tickets_append, tickets_of_plain hg, List.append_nil]; exact h.drawn
  inside g hm k hk := by
    rcases List.mem_append.1 hm with h1 | h1
    · exact h.inside g h1 k hk
    · simp [Frame.inside_of_plain (hg g h1)] at hk

/-- The load on top of a stack goes on with its ticket. -/
theorem replace (h : Ticketed (f :: others) l) (hl : l' = l) (ht : tickets fs = tickets [f])
    (hi : ∀ g ∈ fs, ∀ k, g.inside? = some k → l.holder = some k) : Ticketed (fs ++ others) l' := by
  subst hl
  refine ⟨?_, ?_, fun g hg k hk => ?_⟩
  · rw [tickets_append, ht, ← tickets_cons]; exact h.nodup
  · rw [tickets_append, ht, ← tickets_cons]; exact h.drawn
  · rcases List.mem_append.1 hg with h1 | h1
    · exact hi g h1 k hk
    · exact h.inside g (List.mem_cons_of_mem _ h1) k hk

/-- A ticket that was just drawn is a new one. -/
theorem arrive {p : String} (h : Ticketed (f :: others) l) (ht : tickets [f] = []) (self : Nat) :
    Ticketed ([.load p (.queueing l.tickets)] ++ others) (l.arrive self).2 := by
  have hothers : tickets (f :: others) = tickets others := by rw [tickets_cons, ht, List.nil_append]
  have hnext : (l.arrive self).2.tickets = l.tickets + 1 := by unfold Lock.arrive; split <;> rfl
  have hmine : tickets [Frame.load p (.queueing l.tickets)] = [l.tickets] := rfl
  refine ⟨?_, fun k hk => ?_, fun g hg k hk => ?_⟩
  · rw [tickets_append, hmine, ← hothers, List.singleton_append, List.nodup_cons]
    exact ⟨fun hm => Nat.lt_irrefl _ (h.drawn _ hm), h.nodup⟩
  · rw [tickets_append, hmine, ← hothers] at hk
    rw [hnext]
    rcases List.mem_cons.1 hk with rfl | hk
    · exact Nat.lt_succ_self _
    · exact Nat.lt_succ_of_lt (h.drawn k hk)
  · rcases List.mem_append.1 hg with h1 | h1
    · obtain rfl := List.mem_singleton.1 h1
      simp [Frame.inside?] at hk
    · have hh := h.inside g (List.mem_cons_of_mem _ h1) k hk
      unfold Lock.arrive
      rw [hh]

/-- The load that has the lock gives its ticket back. Nobody else was let through. -/
theorem leave {k : Nat} (h : Ticketed (f :: others) l) (hf : f.inside? = some k) :
    Ticketed others (l.leave k).2 := by
  have hmine : tickets [f] = [k] := by
    simp [tickets, Frame.ticket?_of_inside hf]
  have hn := h.nodup
  rw [tickets_cons, hmine, List.singleton_append, List.nodup_cons] at hn
  have hleft : (l.leave k).2.tickets = l.tickets := by
    unfold Lock.leave Lock.release
    split_ifs
    · split <;> rfl
    · rfl
  refine ⟨hn.2, fun j hj => ?_, fun g hg j hj => ?_⟩
  · rw [hleft]
    exact h.drawn j (by rw [tickets_cons]; exact List.mem_append_right _ hj)
  · have h1 := h.inside f (by simp) k hf
    obtain rfl : k = j := Option.some.inj (h1.symm.trans (h.inside g (List.mem_cons_of_mem _ hg) j hj))
    exact absurd (mem_tickets_of_inside hg hj) hn.1

end Ticketed

theorem Part.ticketed (h : Part su w f v m) (ht : Ticketed (f :: others) w.lock) :
    Ticketed (m.frames ++ others) v.lock := by
  have mine {k : Nat} (hk : f.inside? = some k) : w.lock.holder = some k := ht.inside f (by simp) k hk
  cases h with
  | none _ hl _ hk hi => exact ht.replace hl hk fun g hg k hg' => (hi g hg k hg').elim mine id
  | register hf _ _ hl hm =>
    obtain ⟨who, found, cur, rest, rfl⟩ := hf
    refine ht.replace hl (by rw [tickets_of_plain hm]; rfl) fun g hg k hk => ?_
    simp [Frame.inside_of_plain (hm g hg)] at hk
  | begin _ hl _ hk hi => exact ht.replace hl hk fun g hg k hg' => mine (hi g hg k hg')
  | finish hf _ _ hl hm =>
    refine ht.replace hl ?_ (by simp [hm])
    simp [hm, tickets, Frame.ticket_of_pass hf]
  | @reset _ _ p k hf _ _ hl _ hk hi =>
    subst hf
    refine ht.replace hl (by rw [hk]; rfl) fun g hg j hj => ?_
    obtain rfl := hi g hg j hj
    exact mine rfl
  | arrive hf _ hl hm =>
    subst hf
    rw [hl, hm]
    exact ht.arrive rfl _
  | leave hf _ hl hm =>
    rw [hl, hm]
    exact ht.leave hf

/-! Run passes -/

theorem passes_cons : passes (f :: others) = passes [f] + passes others := by
  simp [passes, List.countP_cons]; omega

theorem passes_append {fs gs : List Frame} : passes (fs ++ gs) = passes fs + passes gs :=
  List.countP_append ..

/-- The run passes in progress, as the state of a registry tells. -/
def Registry.running (g : Registry Test) : Nat := if g.state = .running then 1 else 0

/-- One run pass is in progress while the registry is closed, and none otherwise. -/
def World.Exclusive (w : World) : Prop := passes w.frames = w.registry.running

instance (w : World) : Decidable w.Exclusive := inferInstanceAs (Decidable (_ = _))

theorem Registry.running_register {g g' : Registry Test} {t : Test} (h : g.register t = .ok g') :
    g'.running = g.running := by
  unfold Registry.register at h
  split_ifs at h
  obtain rfl := Except.ok.inj h
  rfl

theorem Registry.running_beginRun {g g' : Registry Test} {tests : List Test}
    (h : g.beginRun = .ok (tests, g')) : g.running = 0 ∧ g'.running = 1 := by
  unfold Registry.beginRun at h
  split_ifs at h with hs
  obtain ⟨-, rfl⟩ := Prod.mk.inj (Except.ok.inj h)
  exact ⟨if_neg hs, rfl⟩

/-- A move keeps count of the passes, unless it opens the registry under one of them. -/
theorem Part.exclusive (h : Part su w f v m) (hx : passes (f :: others) = w.registry.running)
    (hr : ∀ p k, f = .load p (.entered k) → Frame.startsWith p su.driver.harness.pathStart = true →
      passes others = 0) : passes (m.frames ++ others) = v.registry.running := by
  rw [passes_cons] at hx
  rw [passes_append]
  cases h with
  | none hg _ hp => rw [hg, hp, hx]
  | register hf _ hg _ hm =>
    obtain ⟨who, found, cur, rest, rfl⟩ := hf
    rw [passes_of_plain hm, Registry.running_register hg, ← hx]
    rfl
  | begin hg _ hp =>
    obtain ⟨h0, h1⟩ := Registry.running_beginRun hg
    omega
  | finish hf hs hg _ hm =>
    have h1 : passes [f] = 1 := by simp [passes, hf]
    have h2 : w.registry.running ≤ 1 := by unfold Registry.running; split_ifs <;> omega
    have h3 : v.registry.running = 0 := by rw [hg]; exact if_neg hs
    rw [hm, h3, show passes [] = 0 from rfl]
    omega
  | reset hf hs hg _ hp => rw [hp, hr _ _ hf hs, hg]; rfl
  | arrive hf hg _ hm =>
    subst hf
    rw [hm, hg, ← hx]
    rfl
  | leave hf hg _ hm =>
    have h1 : passes [f] = 0 := by
      cases f <;> first | rfl | simp [Frame.inside?] at hf
    rw [hm, hg, ← hx, h1]
    rfl

end PageTest
