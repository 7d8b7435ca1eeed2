import PageTest.Proofs.Load.Grammar
import PageTest.Proofs.Load.Caller
import PageTest.Proofs.Load.Rejected

/-! Loads that any tasks call at any time, some of them given up on their way. The lock lets one
load through at a time, so the log is one block for each load that came to hold it, in that order.
-/

namespace PageTest

namespace Code

/-- Scripts and bodies may do anything but load, run passes and drive; of the log entries that they
append themselves only some kinds are allowed. Tasks of their own may do anything that leaves the
log alone. -/
def serial (appends : LogKind → Bool) : Code where
  body := ⟨true, appends, true, false, false, false, true, true, true⟩
  task := ⟨false, fun _ => false, true, true, true, false, true, true, true⟩
  drives_body := rfl
  loads_drives _ := rfl
  speaks_task := rfl
  appends_task _ := rfl
  runs_task := rfl

end Code

structure Serial (su : Setup) (c : Code) (base : List LogEntry) (first : Nat) (acts : List Act)
    (w : World) : Prop where
  callers : ∀ (i : Nat) (a : Activity), w.core.tasks[i]? = some a → Caller su c acts w.core a
  apart : ∀ (i i' : Nat) (a a' : Activity) (j : Nat), w.core.tasks[i]? = some a →
    w.core.tasks[i']? = some a' →
    a.ticket? = some j → a'.ticket? = some j → i = i'
  line : Line first w.lock (grants acts)
  blank : ∀ j, j ∉ grants acts → storyOf j acts = .blank
  told : ∀ j, (storyOf j acts).log = blockOf j acts
  log : w.log.history = base ++ ledger acts
  drawn : ∀ act ∈ acts, ∀ j, act.ticket? = some j → j < w.lock.tickets
  fates : ∀ j, first ≤ j → j < w.lock.tickets → Fate su c j acts
  standing : ∀ j, first ≤ j → j < w.lock.tickets → Finished j acts ∨ GivenUp j acts ∨ w.Within j
  spared : ∀ act ∈ acts, ∀ sp, act.spot? = some sp →
    Frame.startsWith sp.path su.driver.harness.pathStart = false →
    act.after.registry = act.before.registry ∧ act.after.scene = act.before.scene

variable {su : Setup} {c : Code} {p : String} {acts : List Act} {act : Act} {a : Activity} {j : Nat}
variable {phase : LoadPhase}

namespace Serial

variable {base : List LogEntry} {first : Nat} {w w' : World} {m : Option Nat} {t : Nat}

theorem bystanders (h : Serial su c base first acts w) : Bystanders c w.Loading w.core := by
  intro i a hi ha
  cases h.callers i a ha with
  | off ho _ => exact ho
  | on hin => exact absurd ⟨a, ha, by rw [hin.spot]; rfl⟩ hi

theorem inLoad (h : Serial su c base first acts w) (ha : w.core.tasks[t]? = some a)
    (hs : (spot? a.stack).isSome = true) :
    ∃ p phase inner below, InLoad su c acts w.core a p phase inner below := by
  cases h.callers t a ha with
  | off _ hn => simp [hn] at hs
  | on hin => exact ⟨_, _, _, _, hin⟩

theorem new_grants (h : Line first w'.lock (grants acts ++ act.granted)) :
    ∀ j ∈ act.granted, j ∉ grants acts :=
  fun j hj hold => (List.nodup_append.1 h.nodup).2.2 j hold j hj rfl

theorem block_nil (h : Serial su c base first acts w) (j : Nat) (hj : j ∉ grants acts) :
    blockOf j acts = [] := by
  rw [← h.told, h.blank j hj]
  rfl

/-- Nothing happened in any load. -/
theorem idle (h : Serial su c base first acts w) (hs : (Act.mk m w w').spot? = none)
    (hc : ∀ (i : Nat) (a : Activity), w'.core.tasks[i]? = some a → Caller su c (acts ++ [⟨m, w, w'⟩]) w'.core a)
    (ha : ∀ (i : Nat) (a : Activity) (j : Nat), w'.core.tasks[i]? = some a → a.ticket? = some j →
      ∃ b, w.core.tasks[i]? = some b ∧ b.ticket? = some j)
    (hst : ∀ (i : Nat) (a : Activity) (j : Nat), w.core.tasks[i]? = some a → a.ticket? = some j →
      ∃ b, w'.core.tasks[i]? = some b ∧ (b.ticket? = some j ∨ b.ended = some .cancelled))
    (hl : Line first w'.lock (grants acts ++ (Act.mk m w w').granted))
    (ht : w'.lock.tickets = w.lock.tickets)
    (hh : w'.log.history = w.log.history) : Serial su c base first (acts ++ [⟨m, w, w'⟩]) w' := by
  have hticket : (Act.mk m w w').ticket? = none := by simp [Act.ticket?, hs]
  have hne (j : Nat) : (Act.mk m w w').ticket? ≠ some j := by simp [hticket]
  refine ⟨hc, fun i i' a a' j hi hi' hj hj' => ?_, by rw [grants_snoc]; exact hl, fun j hj => ?_,
    fun j => ?_, ?_,
    fun act hm j hj => ?_, fun j h1 h2 => ?_, fun j h1 h2 => ?_, fun act hm sp hsp hp => ?_⟩
  · obtain ⟨b, hb, hbj⟩ := ha i a j hi hj
    obtain ⟨b', hb', hbj'⟩ := ha i' a' j hi' hj'
    exact h.apart i i' b b' j hb hb' hbj hbj'
  · rw [storyOf_snoc, if_neg (hne j)]
    exact h.blank j fun hm => hj (by simp [hm])
  · rw [storyOf_snoc, blockOf_snoc, if_neg (hne j), if_neg (hne j), List.append_nil, h.told]
  · rw [hh, h.log, ledger_still h.block_nil (new_grants hl) (.inl hticket)]
  · rw [ht]
    rcases List.mem_append.1 hm with h1 | h1
    · exact h.drawn act h1 j hj
    · obtain rfl := List.mem_singleton.1 h1
      exact absurd hj (hne j)
  · exact (h.fates j h1 (ht ▸ h2)).other (hne j)
  · rcases h.standing j h1 (ht ▸ h2) with h3 | h3 | ⟨i, a, hi, hj⟩
    · exact .inl (finished_snoc.2 (.inl h3))
    · exact .inr (.inl h3.snoc)
    · obtain ⟨b, hb, hbj | hend⟩ := hst i a j hi hj
      · exact .inr (.inr ⟨i, b, hb, hbj⟩)
      · exact .inr (.inl ⟨⟨m, w, w'⟩, by simp, i, a, b, hi, hj, hb, hend⟩)
  · rcases List.mem_append.1 hm with h1 | h1
    · exact h.spared act h1 sp hsp hp
    · obtain rfl := List.mem_singleton.1 h1
      simp [hs] at hsp

theorem quiet (h : Serial su c base first acts w) (hq : Quiet (fun _ => True) c w.Loading w m w') :
    Serial su c base first (acts ++ [⟨m, w, w'⟩]) w' := by
  have hlock : w'.lock = w.lock := hq.deeds.lock (.inr rfl)
  have hs : (Act.mk m w w').spot? = none := by
    cases m with
    | none => rfl
    | some t =>
      have hidle := hq.mover t rfl
      simp only [Act.spot?, Act.activity?, Option.bind_some]
      cases ha : w.core.tasks[t]? with
      | none => rfl
      | some a =>
        by_contra hne
        exact hidle ⟨a, ha, by simpa [Option.isSome_iff_ne_none] using hne⟩
  have hne (j : Nat) : (Act.mk m w w').ticket? ≠ some j := by simp [Act.ticket?, hs]
  have old (i : Nat) (a : Activity) (ha : w'.core.tasks[i]? = some a) :
      (∃ b, w.core.tasks[i]? = some b ∧ a.stack = b.stack ∧ a.returned = b.returned) ∨
        Orderly c .task a.stack a.returned := by
    by_cases hi : w.Loading i
    · obtain ⟨b, hb, -⟩ := id hi
      obtain ⟨a', ha', hu⟩ := hq.old i b hi hb
      obtain rfl := Option.some.inj (ha.symm.trans ha')
      exact .inl ⟨b, hb, hu.stack, hu.returned⟩
    · exact .inr (hq.bystanders i a hi ha)
  refine h.idle hs (fun i a ha => ?_) (fun i a j ha hj => ?_) (fun i a j ha hj => ?_) ?_ (by rw [hlock])
    hq.deeds.history_task
  · rcases old i a ha with ⟨b, hb, hst, hret⟩ | ho
    · exact (h.callers i b hb).keep hst hret (fun j _ => hne j) fun sp _ hg => hg.deeds hq.deeds
    · exact (Caller.of_orderly _ _ _ ho).1
  · rcases old i a ha with ⟨b, hb, hst, -⟩ | ho
    · exact ⟨b, hb, by simpa [Activity.ticket?, hst] using hj⟩
    · simp [(Caller.of_orderly su acts w.core ho).2] at hj
  · obtain ⟨b, hb, hu⟩ := hq.old i a ⟨a, ha, by
      cases hsp : spot? a.stack <;> simp [Activity.ticket?, hsp] at hj ⊢⟩ ha
    exact ⟨b, hb, .inl (by simpa [Activity.ticket?, hu.stack] using hj)⟩
  · have : (Act.mk m w w').granted = [] := by simp [Act.granted, Lock.handed, hlock]
    rw [this, List.append_nil, hlock]
    exact h.line

/-- A task is given up within a load. -/
theorem drop {v : World} (h : Serial su c base first acts w) (hl : c.body.loads = false)
    (ht : w.Loading t) (hv : w.Later v) (hvr : v.running = none) :
    Serial su c base first (acts ++ [⟨none, w, v.cancelNow t⟩]) (v.cancelNow t) := by
  obtain ⟨x, hx, hload⟩ := ht
  have hcore := World.core_drop (t := t) hv hvr
  obtain ⟨p, phase, inner, below, hin⟩ := h.inLoad hx hload
  have hlock : (v.cancelNow t).lock = w.lock.without x.ticket? := by
    have : (v.cancelNow t).lock = Core.dropLocks w.lock ((w.core.tasks[t]?.map (·.stack)).getD []) :=
      congrArg Core.lock hcore
    rw [this, hx, hin.ticket]
    show Core.dropLocks w.lock x.stack = _
    rw [hin.stack]
    exact Core.dropLocks_load _ (hin.doing.no_load hl) fun f hf => (hin.below f hf).2
  have hreg : (v.cancelNow t).core.registry = w.core.registry := by rw [hcore]; rfl
  have old (i : Nat) (a : Activity) (ha : (v.cancelNow t).core.tasks[i]? = some a) :
      (i ≠ t ∧ w.core.tasks[i]? = some a) ∨ a.stack = [] := by
    rw [hcore] at ha
    by_cases hi : t = i
    · subst hi
      simp only [Core.cancelNow, List.getElem?_modify, hx] at ha
      obtain rfl : x.finish .cancelled = a := by simpa using ha
      exact .inr rfl
    · simp only [Core.cancelNow, List.getElem?_modify, hi, if_false] at ha
      exact .inl ⟨Ne.symm hi, by simpa using ha⟩
  refine h.idle rfl (fun i a ha => ?_) (fun i a j ha hj => ?_) (fun i a j ha hj => ?_) ?_
    (by rw [hlock, Lock.tickets_without]) ?_
  · rcases old i a ha with ⟨hi, ha'⟩ | hnil
    · refine (h.callers i a ha').keep rfl rfl (fun j _ => by simp [Act.ticket?, Act.spot?, Act.activity?]) fun sp hsp hg =>
        hg.beside ?_ (fun j hj hh => ?_) (.inl hreg)
      · show w.lock.tickets ≤ (v.cancelNow t).lock.tickets
        rw [hlock, Lock.tickets_without]
      · show (v.cancelNow t).lock.holder = some j
        rw [hlock]
        refine Lock.holder_without hh fun hk => hi ?_
        exact h.apart i t a x j ha' hx (by simp [Activity.ticket?, hsp, hj]) hk
    · exact .off (by rw [hnil]; trivial) (by rw [hnil]; rfl)
  · rcases old i a ha with ⟨-, ha'⟩ | hnil
    · exact ⟨a, ha', hj⟩
    · simp [Activity.ticket?, hnil, spot?] at hj
  · rw [hcore]
    by_cases hi : t = i
    · subst hi
      exact ⟨x.finish .cancelled, by simp [Core.cancelNow, hx], .inr rfl⟩
    · exact ⟨a, by simp [Core.cancelNow, hi, ha], .inl hj⟩
  · show Line first _ (grants acts ++ w.lock.handed (v.cancelNow t).lock)
    rw [hlock]
    exact h.line.without _
  · rw [show (v.cancelNow t).log = w.log from congrArg Core.log hcore]

/-- The next ticket is still to be drawn. -/
theorem unused (h : Serial su c base first acts w) : Unused w.lock.tickets acts := fun act ha hk =>
  Nat.lt_irrefl _ (h.drawn act ha _ hk)

/-! A load moves -/

section

variable {inner below : List Frame} {s' : Story} {x x' : Activity}
variable (h : Serial su c base first acts w) (hx : w.core.tasks[t]? = some x)
variable (hin : InLoad su c acts w.core x p phase inner below)
variable (hm : LoadMoved su c p t (storyFor acts phase) s' phase below w w')
include h hx hin hm

/-- The other tasks are left alone, or are new. -/
theorem others {i : Nat} (hi : i ≠ t) (ha : w'.core.tasks[i]? = some a) :
    Caller su c (acts ++ [⟨some t, w, w'⟩]) w'.core a ∧
      ∀ j, a.ticket? = some j → ∃ b, w.core.tasks[i]? = some b ∧ b.ticket? = some j := by
  obtain ⟨x', -, hout⟩ := hm.after
  have hlock := handed hout
  have hticket := (act_spot w' hx hin).2
  rcases Nat.lt_or_ge i w.core.tasks.length with hlt | hge
  · obtain ⟨b, hb⟩ : ∃ b, w.core.tasks[i]? = some b := ⟨_, List.getElem?_eq_getElem hlt⟩
    obtain ⟨a', ha', hu⟩ := hm.aside.old i b hi hb
    obtain rfl := Option.some.inj (ha.symm.trans ha')
    have hapart (j : Nat) (hj : b.ticket? = some j) : World.ticketOf phase ≠ some j := fun hk =>
      hi (h.apart i t b x j hb hx hj (hin.ticket.trans hk))
    refine ⟨(h.callers i b hb).keep hu.stack hu.returned (fun j hj => by rw [hticket]; exact hapart j hj)
      fun sp hsp hg => ?_, fun j hj => ⟨b, hb, by simpa [Activity.ticket?, hu.stack] using hj⟩⟩
    have hown (j : Nat) (hj : World.ticketOf sp.phase = some j) : World.ticketOf phase ≠ some j :=
      hapart j (by simp [Activity.ticket?, hsp, hj])
    refine hg.beside hlock.tickets (fun j hj hh => hlock.holder j hh (hown j hj)) ?_
    rcases hin.holds with hwait | ⟨i', hi', hh⟩
    · exact .inl (hm.waits hwait).2.2
    · refine .inr fun j hj hh' => hown j hj ?_
      rw [hi', ← hh', hh]
  · obtain ⟨hret, -, ho⟩ := hm.aside.new i a hge ha
    rw [← hret] at ho
    obtain ⟨hcaller, hnone⟩ := Caller.of_orderly su (acts ++ [⟨some t, w, w'⟩]) w'.core ho
    exact ⟨hcaller, fun j hj => by simp [hnone] at hj⟩

/-- No two tasks are in the load with one ticket. -/
theorem moved_apart (hmove : Mover su c phase (acts ++ [⟨some t, w, w'⟩]) w w' x')
    (hx' : w'.core.tasks[t]? = some x')
    {i i' : Nat} {a a' : Activity} {j : Nat} (ha : w'.core.tasks[i]? = some a)
    (ha' : w'.core.tasks[i']? = some a')
    (hj : a.ticket? = some j) (hj' : a'.ticket? = some j) : i = i' := by
  have separate {i : Nat} {a : Activity} (hi : i ≠ t) (ha : w'.core.tasks[i]? = some a)
      (hj : a.ticket? = some j) (hj' : x'.ticket? = some j) : False := by
    obtain ⟨b, hb, hbj⟩ := (h.others hx hin hm hi ha).2 j hj
    rcases hmove.ticket j hj' with h1 | rfl
    · exact hi (h.apart i t b x j hb hx hbj (hin.ticket.trans h1))
    · exact Nat.lt_irrefl _ ((h.callers i b hb).ticket_lt hbj)
  by_cases hi : i = t
  · subst hi
    obtain rfl := Option.some.inj (ha.symm.trans hx')
    by_contra hne
    exact separate (Ne.symm hne) ha' hj' hj
  · by_cases hi' : i' = t
    · subst hi'
      obtain rfl := Option.some.inj (ha'.symm.trans hx')
      exact (separate hi ha hj hj').elim
    · obtain ⟨b, hb, hbj⟩ := (h.others hx hin hm hi ha).2 j hj
      obtain ⟨b', hb', hbj'⟩ := (h.others hx hin hm hi' ha').2 j hj'
      exact h.apart i i' b b' j hb hb' hbj hbj'

theorem moved_fate (hmove : Mover su c phase (acts ++ [⟨some t, w, w'⟩]) w w' x')
    (hlock : Handed phase w.lock w'.lock) (h1 : first ≤ j) (h2 : j < w'.lock.tickets) :
    Fate su c j (acts ++ [⟨some t, w, w'⟩]) ∧
      (Finished j (acts ++ [⟨some t, w, w'⟩]) ∨ GivenUp j (acts ++ [⟨some t, w, w'⟩]) ∨ w'.Within j) := by
  by_cases hj : World.ticketOf phase = some j ∨ j = w.lock.tickets
  · exact hmove.fate j h2 hj
  · obtain ⟨hown, hne⟩ := not_or.1 hj
    have hlt : j < w.lock.tickets := by
      have := hlock.drawn
      omega
    refine ⟨(h.fates j h1 hlt).other (by rwa [(act_spot w' hx hin).2]), ?_⟩
    rcases h.standing j h1 hlt with h3 | h3 | ⟨i, a, hi, hij⟩
    · exact .inl (finished_snoc.2 (.inl h3))
    · exact .inr (.inl h3.snoc)
    · have hit : i ≠ t := by
        rintro rfl
        obtain rfl := Option.some.inj (hi.symm.trans hx)
        exact hown (hin.ticket.symm.trans hij)
      obtain ⟨a', ha', hu⟩ := hm.aside.old i a hit hi
      exact .inr (.inr ⟨i, a', ha', by simpa [Activity.ticket?, hu.stack] using hij⟩)

/-- What the load has written goes to the end of the log, into the last block. -/
theorem moved_log (hline : Line first w'.lock (grants acts ++ (Act.mk (some t) w w').granted)) :
    w'.log.history = base ++ ledger (acts ++ [⟨some t, w, w'⟩]) := by
  rw [hm.history, h.log, List.append_assoc]
  congr 1
  rcases hin.holds with hwait | ⟨i, hi, hh⟩
  · have hes := (hm.waits hwait).2.1
    rw [ledger_still h.block_nil (new_grants hline) (.inr hes), hes, List.append_nil]
  · obtain ⟨before, hb⟩ := h.line.last i hh
    have hticket := (act_spot w' hx hin).2.trans hi
    exact (ledger_last h.block_nil (new_grants hline) hb h.line.nodup hticket).symm

variable (hs : ∀ j, World.ticketOf phase = some j → storyOf j (acts ++ [⟨some t, w, w'⟩]) = s')
include hs

theorem moved_told (j : Nat) :
    (storyOf j (acts ++ [⟨some t, w, w'⟩])).log = blockOf j (acts ++ [⟨some t, w, w'⟩]) := by
  have hticket := (act_spot w' hx hin).2
  by_cases hk : World.ticketOf phase = some j
  · rw [hs j hk, hm.told, storyFor_eq hk, h.told, blockOf_snoc, if_pos (hticket.trans hk)]
  · rw [storyOf_snoc, blockOf_snoc, if_neg (by rwa [hticket]), if_neg (by rwa [hticket]),
      List.append_nil, h.told]

/-- A load that has never held the lock has no story. -/
theorem moved_blank (hj : j ∉ grants acts) : storyOf j (acts ++ [⟨some t, w, w'⟩]) = .blank := by
  by_cases hk : World.ticketOf phase = some j
  · rw [hs j hk]
    rcases hin.holds with hwait | ⟨i, hi, hh⟩
    · rw [(hm.waits hwait).1, storyFor_eq hk]
      exact h.blank j hj
    · obtain rfl : i = j := Option.some.inj (hi.symm.trans hk)
      obtain ⟨before, hb⟩ := h.line.last i hh
      exact absurd (by simp [hb]) hj
  · rw [storyOf_snoc, if_neg (by rwa [(act_spot w' hx hin).2])]
    exact h.blank j hj

theorem moved
    (hspared : Frame.startsWith p su.driver.harness.pathStart = false → w'.registry = w.registry ∧ w'.scene = w.scene) :
    Serial su c base first (acts ++ [⟨some t, w, w'⟩]) w' := by
  obtain ⟨x', hx', hout⟩ := hm.after
  have hlock := handed hout
  have hmove := hin.mover h.unused hx hx' hs hout
  have hline : Line first w'.lock (grants acts ++ (Act.mk (some t) w w').granted) :=
    hlock.line first _ h.line
  obtain ⟨hspot, hticket⟩ := act_spot w' hx hin
  refine ⟨fun i a ha => ?_,
    fun i i' a a' j => h.moved_apart hx hin hm hmove hx', by rw [grants_snoc]; exact hline,
    fun j hj => ?_, h.moved_told hx hin hm hs, h.moved_log hx hin hm hline, fun act hact j hj => ?_,
    fun j h1 h2 => (h.moved_fate hx hin hm hmove hlock h1 h2).1,
    fun j h1 h2 => (h.moved_fate hx hin hm hmove hlock h1 h2).2, fun act hact sp hsp hp => ?_⟩
  · by_cases hi : i = t
    · subst hi
      obtain rfl := Option.some.inj (ha.symm.trans hx')
      exact hmove.caller
    · exact (h.others hx hin hm hi ha).1
  · rw [grants_snoc, List.mem_append, not_or] at hj
    exact h.moved_blank hx hin hm hs hj.1
  · rcases List.mem_append.1 hact with h1 | h1
    · exact (h.drawn act h1 j hj).trans_le hlock.tickets
    · obtain rfl := List.mem_singleton.1 h1
      exact (hin.ticket_lt (hticket.symm.trans hj)).trans_le hlock.tickets
  · rcases List.mem_append.1 hact with h1 | h1
    · exact h.spared act h1 sp hsp hp
    · obtain rfl := List.mem_singleton.1 h1
      obtain rfl := Option.some.inj (hspot.symm.trans hsp)
      exact hspared hp

end

/-- A move of a task that is in a load. -/
theorem move (h : Serial su c base first acts w) (hc : ∀ sc ∈ su.catalog, sc.obeys c = true)
    (hl : c.body.loads = false) (ht : w.Loading t) :
    Serial su c base first (acts ++ [⟨some t, w, w.runTask su t⟩]) (w.runTask su t) := by
  obtain ⟨x, hx, hload⟩ := ht
  obtain ⟨p, phase, inner, below, hin⟩ := h.inLoad hx hload
  have hb : ∀ f ∈ below, f.isLoad = false := fun f hf => (hin.below f hf).2
  have hspared := fun hp => runTask_unsupported hin.doing hp hx hin.stack fun g hg =>
    (hin.below g hg).1
  by_cases hk : phase = .arriving
  · subst hk
    obtain ⟨rfl, hr⟩ : inner = [] ∧ x.returned = none := by
      have hd := hin.doing
      generalize storyFor acts .arriving = s at hd
      generalize x.returned = ret at hd
      cases hd
      exact ⟨rfl, rfl⟩
    exact h.moved hx hin (turn_arriving hx hin.stack hr hb) (by simp [World.ticketOf]) hspared
  · refine h.moved hx hin (turn_ticket hin.doing hin.grounded hx hin.stack hb hc hl hk) (fun j hj => ?_) hspared
    rw [storyOf_snoc, if_pos ((act_spot _ hx hin).2.trans hj), ← storyFor_eq hj]
    exact Story.see_load _ _ hx hin.stack hb

/-- One step under any scheduler. -/
theorem step (h : Serial su c base first acts w) (hc : ∀ sc ∈ su.catalog, sc.obeys c = true)
    (hl : c.body.loads = false) (hn : Next su (fun _ => True) w m w') :
    Serial su c base first (acts ++ [⟨m, w, w'⟩]) w' := by
  have htop : ∀ t a f rest, ¬ w.Loading t → w.core.tasks[t]? = some a → a.stack = f :: rest →
    f.isLoad = false := by
    intro t a f rest ht ha hs
    refine spot?_top (?_ : spot? (f :: rest) = none)
    by_contra hne
    exact ht ⟨a, ha, by rw [hs]; simpa [Option.isSome_iff_ne_none] using hne⟩
  rcases hn.split h.bystanders htop with ⟨t, ht, rfl, hr, rfl⟩ | ⟨t, v, ht, rfl, hr, hd, hv,
    hvr, rfl⟩ | hq
  · exact h.move hc hl ht
  · exact h.drop hl ht hv hvr
  · exact h.quiet hq

theorem start (hb : Bystanders c (fun _ => False) w.core) (hfree : w.lock.holder = none)
    (hline : w.lock.queue = []) : Serial su c w.log.history w.lock.tickets [] w := by
  have horderly (i : Nat) (a : Activity) (ha : w.core.tasks[i]? = some a) := hb i a (by simp) ha
  refine ⟨fun i a ha => (Caller.of_orderly _ _ _ (horderly i a ha)).1,
    fun i i' a a' j ha ha' hj hj' => ?_,
    ⟨by simp [grants], le_rfl, by simp [grants], by simp [hfree], by simp [hline], by simp [hline]⟩,
      fun j hj => rfl,
    fun j => rfl, by simp [ledger, grants], by simp, fun j h1 h2 => by omega, fun j h1 h2 => by
      omega, by simp⟩
  simp [(Caller.of_orderly su [] w.core (horderly i a ha)).2] at hj

theorem run {w₀ : World} (h : Serial su c base first [] w₀)
    (hc : ∀ sc ∈ su.catalog, sc.obeys c = true)
    (hl : c.body.loads = false) (hr : Run su (fun _ => True) w₀ acts w) :
    Serial su c base first acts w := by
  induction hr with
  | start => exact h
  | step _ hn ih => exact ih.step hc hl hn

end Serial

/-- A story that the load with a ticket has come to, or one that it comes to from where it stands when it goes
on by its own moves. -/
inductive Completes (su : Setup) (c : Code) (p : String) (j : Nat) (acts : List Act) : Story → Prop
  | ended : Finished j acts → Completes su c p j acts (storyOf j acts)
  | going {w : World} {phase : LoadPhase} {inner : List Frame} {ret : Option Outcome} {s : Story} :
      ¬ Finished j acts → Stands su p j acts w phase inner ret →
      Onward su.hearing c p w (storyOf j acts) phase inner ret s → Completes su c p j acts s

/-- What is written while any tasks call loads, and are cancelled anywhere: one block for each load
that came to hold the lock, in that order. A load that was neither given up nor is still going on
has returned; then its block is complete. Any other block is how a complete one begins that the load
can still come to by its own moves. A rejected load leaves the registry and the page alone. -/
theorem loads_serialized {appends : LogKind → Bool} {w w' : World}
    (hc : ∀ sc ∈ su.catalog, sc.obeys (.serial appends) = true) (hp : su.loader.panicOn = none)
    (hb : Bystanders (.serial appends) (fun _ => False) w.core) (hfree : w.lock.holder = none)
    (hline : w.lock.queue = [])
    (hr : Run su (fun _ => True) w acts w') :
    w'.log.history = w.log.history ++ (grants acts).flatMap (blockOf · acts) ∧ (grants acts).Nodup ∧
      (∀ j ∈ grants acts, (Finished j acts ∨ GivenUp j acts ∨ w'.Within j) ∧
        ∃ p, LoadsPath j p acts ∧ (storyOf j acts).log = blockOf j acts ∧
        (storyOf j acts).Voiced (.serial appends) ∧
          (Finished j acts → Block su p (storyOf j acts)) ∧
          ∃ s, Completes su (.serial appends) p j acts s ∧ Block su p s ∧ s.Voiced (.serial appends) ∧
            (storyOf j acts).Begins s) ∧
      ∀ act ∈ acts, ∀ sp, act.spot? = some sp →
        Frame.startsWith sp.path su.driver.harness.pathStart = false →
        act.after.registry = act.before.registry ∧ act.after.scene = act.before.scene := by
  have h := (Serial.start hb hfree hline).run hc rfl hr
  have hpanic (p : String) : su.loader.panicOn ≠ some p := by simp [hp]
  refine ⟨h.log, h.line.nodup, fun j hj => ?_, h.spared⟩
  obtain ⟨h1, h2⟩ := h.line.drawn j hj
  refine ⟨h.standing j h1 h2, ?_⟩
  cases h.fates j h1 h2 with
  | @going p _ _ _ _ hpath hfin hstands hk hready hd =>
    have hcatalog : ∀ sc ∈ su.hearing.catalog, sc.obeys (.serial appends) = true := hc
    have hsurvives : su.hearing.loader.panicOn ≠ some p := hpanic p
    obtain ⟨s, honward, ho, hs⟩ := hd.hearing.onward rfl hcatalog rfl hsurvives hk hready
    exact ⟨p, hpath, h.told j, hd.voiced, fun hf => absurd hf hfin, s, .going hfin hstands honward,
      (ho.block hsurvives rfl).of_hearing, ho.voices, hs⟩
  | @ended p o hpath hfin ho =>
    have hblock := ho.block (hpanic p) rfl
    exact ⟨p, hpath, h.told j, ho.voices, fun _ => hblock, _, .ended hfin, hblock, ho.voices, .refl _⟩

/-- A load that goes on too long is given up, one runs to its end, and one is rejected. -/
def Demo.crowd : World :=
  { world [.steps .hidden [] none [.sleep 2000, .abort 0]]
      [[.load slowPath .arriving], [.load failingPath .arriving], [.load "nowhere" .arriving]] with
    handles := [some 1] }

theorem Demo.crowd_orderly : Bystanders (.serial fun _ => false) (fun _ => False) crowd.core := by
  intro i a _ ha
  have hi := lt_of_getElem? ha
  simp only [World.core, crowd, world, List.length_map, List.length_cons, List.length_nil] at hi ha
  interval_cases i <;> obtain rfl := Option.some.inj ha <;>
    simp [Orderly, Frame.Obeys, Step.obeys, Role.manners, Task.start, Task.activity, Code.serial]

theorem loads_serialized_demo : let acts := Demo.crowd.actsOf Demo.setup 56
    (Demo.crowd.afterSteps Demo.setup 56).log.history = [0, 1, 2].flatMap (blockOf · acts) ∧
      ∀ j ∈ [0, 1, 2], ∃ p s, LoadsPath j p acts ∧
        Completes Demo.setup (.serial fun _ => false) p j acts s ∧ Block Demo.setup p s ∧
        (storyOf j acts).Begins s := by
  intro acts
  have hgrants : grants acts = [0, 1, 2] := by decide +kernel
  have hscripts : ∀ sc ∈ Demo.setup.catalog, sc.obeys (.serial fun _ => false) = true := by
    decide +kernel
  obtain ⟨hlog, -, hblocks, -⟩ := loads_serialized hscripts rfl Demo.crowd_orderly rfl rfl
    (World.run_afterSteps 56 Demo.crowd)
  rw [hgrants] at hlog
  refine ⟨hlog, fun j hj => ?_⟩
  obtain ⟨-, p, hp, -, -, -, s, hcompletes, hblock, -, hbegins⟩ := hblocks j (hgrants ▸ hj)
  exact ⟨p, s, hp, hcompletes, hblock, hbegins⟩

end PageTest
