import PageTest.Proofs.Load.Task

/-! Which load wrote what. A load is known by the ticket that it drew for the lock; the log is read
as one block after another, in the order in which the lock was handed to the loads. -/

namespace PageTest

/-- The ticket of the load that a task is in. -/
def Activity.ticket? (a : Activity) : Option Nat :=
    (spot? a.stack).bind fun sp => World.ticketOf sp.phase

/-- The tickets to which the lock was handed while it changed. -/
def Lock.handed (l l' : Lock) : List Nat := if l'.holder = l.holder then [] else l'.holder.toList

namespace Act

/-- The load in which an act was made. -/
def spot? (a : Act) : Option Spot := a.activity?.bind fun x => PageTest.spot? x.stack

def ticket? (a : Act) : Option Nat := a.spot?.bind fun sp => World.ticketOf sp.phase

/-- Where the move leaves its task: what is on the stack then, and what is handed down it. A task that is
given up with the move has come there first. -/
def leaves (su : Setup) (a : Act) : List Frame × Option Outcome :=
  match a.mover, a.activity? with
  | some t, some ⟨f :: rest, ret, _, _⟩ => (f.act su a.before t ret).2.onto rest
  | _, _ => ([], none)

theorem leaves_eq {t : Nat} {w : World} {x : Activity} {f : Frame} {rest : List Frame} (su : Setup)
    (w' : World) (hx : w.core.tasks[t]? = some x) (hs : x.stack = f :: rest) :
    (Act.mk (some t) w w').leaves su = (f.act su w t x.returned).2.onto rest := by
  obtain ⟨stack, ret, ended, cancelled⟩ := x
  obtain rfl : stack = f :: rest := hs
  simp [leaves, activity?, hx]

def granted (a : Act) : List Nat := a.before.lock.handed a.after.lock

/-- The mover has come back from a load: nothing of it is left on the stack, and its outcome is
there. -/
def returns (a : Act) : Bool :=
  match a.mover.bind fun t => a.after.core.tasks[t]? with
  | some x => (PageTest.spot? x.stack).isNone && x.returned.isSome
  | none => false

end Act

/-- The tickets of the loads that came to hold the lock, in order. -/
def grants (acts : List Act) : List Nat := acts.flatMap Act.granted

/-- What was written within the load with a ticket. -/
def blockOf (k : Nat) (acts : List Act) : List LogEntry :=
  acts.flatMap fun a => if a.ticket? = some k then a.entries else []

/-- The story of the load with a ticket. -/
def storyOf (k : Nat) (acts : List Act) : Story := .ofActs (acts.filter (·.ticket? == some k))

/-- The load with a ticket has returned. -/
def Finished (k : Nat) (acts : List Act) : Prop := ∃ act ∈ acts, act.ticket? = some k ∧
    act.returns = true

/-- All blocks, in the order of the grants. -/
def ledger (acts : List Act) : List LogEntry := (grants acts).flatMap (blockOf · acts)

variable {acts : List Act} {a : Act} {k : Nat}

@[simp] theorem grants_snoc : grants (acts ++ [a]) = grants acts ++ a.granted := by simp [grants]

theorem blockOf_snoc : blockOf k (acts ++ [a]) = blockOf k acts ++ if a.ticket? = some k then a.entries else [] := by
  simp [blockOf]

theorem storyOf_snoc :
    storyOf k (acts ++ [a]) = if a.ticket? = some k then (storyOf k acts).see a else storyOf k acts := by
  unfold storyOf
  rw [List.filter_append]
  split_ifs with h <;> simp [h]

theorem finished_snoc : Finished k (acts ++ [a]) ↔ Finished k acts ∨
    (a.ticket? = some k ∧ a.returns = true) := by
  simp only [Finished, List.mem_append, List.mem_singleton, or_and_right, exists_or, exists_eq_left]

/-- A grant brings no entries with it. -/
theorem ledger_snoc (hblank : ∀ j, j ∉ grants acts → blockOf j acts = [])
    (hnew : ∀ j ∈ a.granted, j ∉ grants acts)
    (hold : ∀ j ∈ a.granted, a.ticket? = some j → a.entries = []) :
    ledger (acts ++ [a]) = (grants acts).flatMap (blockOf · (acts ++ [a])) := by
  have hnil : a.granted.flatMap (blockOf · (acts ++ [a])) = [] := by
    refine List.flatMap_eq_nil_iff.2 fun j hj => ?_
    rw [blockOf_snoc, hblank j (hnew j hj), List.nil_append]
    split_ifs with h
    · exact hold j hj h
    · rfl
  rw [ledger, grants_snoc, List.flatMap_append, hnil, List.append_nil]

/-- Nothing was written within a load. -/
theorem ledger_still (hblank : ∀ j, j ∉ grants acts → blockOf j acts = [])
    (hnew : ∀ j ∈ a.granted, j ∉ grants acts) (h : a.ticket? = none ∨ a.entries = []) :
    ledger (acts ++ [a]) = ledger acts := by
  have hone (j : Nat) : (if a.ticket? = some j then a.entries else []) = [] := by
    rcases h with h | h <;> simp [h]
  rw [ledger_snoc hblank hnew fun j _ hj => h.resolve_left (by simp [hj])]
  simp only [blockOf_snoc, hone, List.append_nil]
  rfl

/-- The load that holds the lock wrote. -/
theorem ledger_last {before : List Nat} (hblank : ∀ j, j ∉ grants acts → blockOf j acts = [])
    (hnew : ∀ j ∈ a.granted, j ∉ grants acts) (hg : grants acts = before ++ [k])
    (hn : (grants acts).Nodup) (hk : a.ticket? = some k) :
    ledger (acts ++ [a]) = ledger acts ++ a.entries := by
  have hbefore : before.flatMap (blockOf · (acts ++ [a])) = before.flatMap (blockOf · acts) := by
    refine List.flatMap_congr fun j hj => ?_
    have hne : k ≠ j := by
      rw [hg] at hn
      rintro rfl
      exact (List.nodup_append.1 hn).2.2 k hj k (by simp) rfl
    rw [blockOf_snoc, hk, if_neg (by simpa using hne), List.append_nil]
  rw [ledger_snoc hblank hnew fun j hj hkj => ?_, ledger, hg, List.flatMap_append,
    List.flatMap_append, hbefore,
    List.append_assoc]
  · simp [blockOf_snoc, hk]
  · obtain rfl : k = j := Option.some.inj (hk.symm.trans hkj)
    exact absurd (by simp [hg]) (hnew k hj)

/-! The lock -/

/-- A lock that has been handed to some tickets, one after another, and the tickets in line. -/
structure Line (first : Nat) (l : Lock) (granted : List Nat) : Prop where
  nodup : granted.Nodup
  tickets : first ≤ l.tickets
  drawn : ∀ k ∈ granted, first ≤ k ∧ k < l.tickets
  last : ∀ k, l.holder = some k → ∃ before, granted = before ++ [k]
  queue : ∀ q ∈ l.queue, first ≤ q.1 ∧ q.1 < l.tickets ∧ q.1 ∉ granted
  fifo : (l.queue.map (·.1)).Nodup

namespace Line

variable {first : Nat} {l l' : Lock} {granted : List Nat}

theorem same (h : Line first l granted) : Line first l (granted ++ l.handed l) := by
  simpa [Lock.handed] using h

/-- The lock is handed to a ticket that did not have it before. -/
theorem hand (h : Line first l granted) (hh : l'.holder = some k) (hk : first ≤ k ∧ k < l'.tickets)
    (hg : k ∉ granted)
    (ht : l.tickets ≤ l'.tickets) (hq : ∀ q ∈ l'.queue, q ∈ l.queue ∧ q.1 ≠ k) (hf : (l'.queue.map (·.1)).Nodup) :
    Line first l' (granted ++ l.handed l') := by
  have hne : l'.holder ≠ l.holder := by
    intro heq
    obtain ⟨before, hb⟩ := h.last k (heq.symm.trans hh)
    exact hg (by simp [hb])
  have hhanded : l.handed l' = [k] := by rw [Lock.handed, if_neg hne, hh]; rfl
  rw [hhanded]
  refine ⟨?_, h.tickets.trans ht, fun j hj => ?_, fun j hj => ⟨granted, ?_⟩, fun q hq' => ?_, hf⟩
  · refine List.nodup_append.2 ⟨h.nodup, by simp, fun j hj i hi => ?_⟩
    rintro rfl
    obtain rfl := List.mem_singleton.1 hi
    exact hg hj
  · rcases List.mem_append.1 hj with h1 | h1
    · exact ⟨(h.drawn j h1).1, (h.drawn j h1).2.trans_le ht⟩
    · obtain rfl := List.mem_singleton.1 h1
      exact hk
  · obtain rfl : k = j := Option.some.inj (hh.symm.trans hj)
    rfl
  · obtain ⟨hq1, hq2⟩ := hq q hq'
    obtain ⟨h1, h2, h3⟩ := h.queue q hq1
    exact ⟨h1, h2.trans_le ht, by simp [h3, hq2]⟩

theorem arrive (h : Line first l granted) (t : Nat) :
    Line first (l.arrive t).2 (granted ++ l.handed (l.arrive t).2) := by
  have hfresh : l.tickets ∉ granted := fun hm => Nat.lt_irrefl _ (h.drawn _ hm).2
  cases hh : l.holder with
  | none =>
    have hl : (l.arrive t).2 = { l with holder := some l.tickets, tickets := l.tickets + 1 } := by
      simp [Lock.arrive, hh]
    rw [hl]
    refine h.hand (k := l.tickets) rfl ⟨h.tickets,
      Nat.lt_succ_self _⟩ hfresh (Nat.le_succ _) (fun q hq => ⟨hq, ?_⟩) h.fifo
    have := (h.queue q hq).2.1
    omega
  | some k =>
    have hl : (l.arrive t).2 = { l with queue := l.queue ++ [(l.tickets, t)], tickets := l.tickets + 1 } := by
      simp [Lock.arrive, hh]
    rw [hl]
    have hsame : l.handed { l with queue := l.queue ++ [(l.tickets, t)], tickets := l.tickets + 1 } = [] := by
      simp [Lock.handed]
    rw [hsame, List.append_nil]
    refine ⟨h.nodup, h.tickets.trans (Nat.le_succ _),
      fun j hj => ⟨(h.drawn j hj).1, Nat.lt_succ_of_lt (h.drawn j hj).2⟩,
      h.last, fun q hq => ?_, ?_⟩
    · rcases List.mem_append.1 hq with h1 | h1
      · obtain ⟨h2, h3, h4⟩ := h.queue q h1
        exact ⟨h2, Nat.lt_succ_of_lt h3, h4⟩
      · obtain rfl := List.mem_singleton.1 h1
        exact ⟨h.tickets, Nat.lt_succ_self _, hfresh⟩
    · rw [List.map_append]
      refine List.nodup_append.2 ⟨h.fifo, by simp, fun j hj i hi => ?_⟩
      obtain ⟨q, hq, rfl⟩ := List.mem_map.1 hj
      obtain rfl : i = l.tickets := by simpa using hi
      have := (h.queue q hq).2.1
      omega

theorem leave (h : Line first l granted) (k : Nat) :
    Line first (l.leave k).2 (granted ++ l.handed (l.leave k).2) := by
  by_cases hk : l.holder = some k
  · cases hq : l.queue with
    | nil =>
      have hl : (l.leave k).2 = { l with holder := none } := by simp [Lock.leave,
        Lock.release, hk, hq]
      have hsame : l.handed { l with holder := none } = [] := by simp [Lock.handed]
      rw [hl, hsame, List.append_nil]
      exact ⟨h.nodup, h.tickets, h.drawn, by simp, h.queue, h.fifo⟩
    | cons q rest =>
      obtain ⟨j, t⟩ := q
      have hl : (l.leave k).2 = { l with holder := some j, queue := rest } := by simp [Lock.leave,
        Lock.release, hk, hq]
      obtain ⟨h1, h2, h3⟩ := h.queue (j, t) (by simp [hq])
      have hf := h.fifo
      rw [hq, List.map_cons, List.nodup_cons] at hf
      rw [hl]
      refine h.hand (k := j) rfl ⟨h1, h2⟩ h3 le_rfl (fun q hq' => ⟨by simp [hq, hq'], ?_⟩) hf.2
      rintro rfl
      exact hf.1 (List.mem_map.2 ⟨q, hq', rfl⟩)
  · have hl : (l.leave k).2 = { l with queue := l.queue.filter (·.1 ≠ k) } := by
      simp [Lock.leave, hk]
    have hsame : l.handed { l with queue := l.queue.filter (·.1 ≠ k) } = [] := by simp [Lock.handed]
    rw [hl, hsame, List.append_nil]
    exact ⟨h.nodup, h.tickets, h.drawn, h.last, fun q hq => h.queue q (List.mem_filter.1 hq).1,
      h.fifo.sublist (List.Sublist.map _ List.filter_sublist)⟩

end Line

end PageTest
