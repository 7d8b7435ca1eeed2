import PageTest.Proofs.Load.Turns

/-! Tasks that call loads: where they are in the middle of one, and what has become of a load when
its task has moved, was left alone or was given up. -/

namespace PageTest

/-- The story so far of a load in a phase; it has none before it draws its ticket. -/
def storyFor (acts : List Act) (phase : LoadPhase) : Story :=
  match World.ticketOf phase with
  | none => .blank
  | some k => storyOf k acts

/-- All acts of the load with a ticket were for this path. -/
def LoadsPath (k : Nat) (p : String) (acts : List Act) : Prop :=
  ∀ act ∈ acts, ∀ sp, act.spot? = some sp → World.ticketOf sp.phase = some k → sp.path = p

/-- A task in the middle of a load. -/
structure InLoad (su : Setup) (c : Code) (acts : List Act) (k : Core) (a : Activity) (p : String)
    (phase : LoadPhase) (inner below : List Frame) : Prop where
  stack : a.stack = inner ++ .load p phase :: below
  below : ∀ g ∈ below, g.Obeys c .task ∧ g.isLoad = false
  doing : Doing su c p (storyFor acts phase) phase inner a.returned
  grounded : Grounded c k phase
  path : ∀ j, World.ticketOf phase = some j → LoadsPath j p acts
  unfinished : ∀ j, World.ticketOf phase = some j → ¬ Finished j acts

/-- A task that may call loads. -/
inductive Caller (su : Setup) (c : Code) (acts : List Act) (k : Core) (a : Activity) : Prop
  | off : Orderly c .task a.stack a.returned → spot? a.stack = none → Caller su c acts k a
  | on {p : String} {phase : LoadPhase} {inner below : List Frame} :
      InLoad su c acts k a p phase inner below → Caller su c acts k a

/-- No act was made with a ticket. -/
def Unused (j : Nat) (acts : List Act) : Prop := ∀ act ∈ acts, act.ticket? ≠ some j

/-- Where the last move of the load with a ticket left it, whatever became of its task then. A load that has
not moved since it drew its ticket is in line. -/
inductive Stands (su : Setup) (p : String) (j : Nat) (acts : List Act) :
    World → LoadPhase → List Frame → Option Outcome → Prop
  | queueing (w : World) : Unused j acts → Stands su p j acts w (.queueing j) [] none
  | moved {before after : List Act} {act : Act} {phase : LoadPhase} {inner below : List Frame}
      {ret : Option Outcome} : acts = before ++ act :: after → act.ticket? = some j → Unused j after →
      act.leaves su = (inner ++ .load p phase :: below, ret) →
      Stands su p j acts act.after phase inner ret

/-- What has become of the load with a ticket: it is on its way or was given up there, or it has
returned. -/
inductive Fate (su : Setup) (c : Code) (j : Nat) (acts : List Act) : Prop
  | going {p : String} {w : World} {phase : LoadPhase} {inner : List Frame} {ret : Option Outcome} :
      LoadsPath j p acts → ¬ Finished j acts → Stands su p j acts w phase inner ret →
      World.ticketOf phase = some j → Ready c w.registry phase →
      Doing su c p (storyOf j acts) phase inner ret → Fate su c j acts
  | ended {p : String} {o : Outcome} : LoadsPath j p acts → Finished j acts →
      Over su c p (storyOf j acts) o → Fate su c j acts

/-- The task that was in the load with a ticket was cancelled there. -/
def GivenUp (j : Nat) (acts : List Act) : Prop :=
  ∃ act ∈ acts, ∃ (i : Nat) (a a' : Activity), act.before.core.tasks[i]? = some a ∧
  a.ticket? = some j ∧
    act.after.core.tasks[i]? = some a' ∧ a'.ended = some .cancelled

/-- A task is in the load with a ticket. -/
def World.Within (w : World) (j : Nat) : Prop :=
  ∃ (i : Nat) (a : Activity), w.core.tasks[i]? = some a ∧ a.ticket? = some j

variable {su : Setup} {c : Code} {p : String} {acts : List Act} {act : Act} {a a' : Activity}
variable {k k' : Core} {j : Nat} {phase : LoadPhase}

theorem storyFor_eq (h : World.ticketOf phase = some j) : storyFor acts phase = storyOf j acts := by
  unfold storyFor
  rw [h]

theorem storyFor_snoc (h : ∀ j, World.ticketOf phase = some j → act.ticket? ≠ some j) :
    storyFor (acts ++ [act]) phase = storyFor acts phase := by
  unfold storyFor
  cases hk : World.ticketOf phase with
  | none => rfl
  | some j => exact storyOf_snoc.trans (if_neg (h j hk))

theorem LoadsPath.other (h : LoadsPath j p acts) (ha : act.ticket? ≠ some j) :
    LoadsPath j p (acts ++ [act]) := by
  intro act' hm sp hsp hj
  rcases List.mem_append.1 hm with h1 | h1
  · exact h act' h1 sp hsp hj
  · obtain rfl := List.mem_singleton.1 h1
    exact absurd (by simp [Act.ticket?, hsp, hj]) ha

theorem LoadsPath.own {sp : Spot} (h : LoadsPath j p acts) (hs : act.spot? = some sp)
    (hp : sp.path = p) : LoadsPath j p (acts ++ [act]) := by
  intro act' hm sp' hsp hj
  rcases List.mem_append.1 hm with h1 | h1
  · exact h act' h1 sp' hsp hj
  · obtain rfl := List.mem_singleton.1 h1
    obtain rfl := Option.some.inj (hs.symm.trans hsp)
    exact hp

theorem not_finished_snoc (h : ¬ Finished j acts)
    (ha : act.ticket? = some j → act.returns = false) : ¬ Finished j (acts ++ [act]) := by
  rw [finished_snoc]
  rintro (h1 | ⟨h1, h2⟩)
  · exact h h1
  · simp [ha h1] at h2

namespace Unused

theorem snoc (h : Unused j acts) (ha : act.ticket? ≠ some j) : Unused j (acts ++ [act]) := by
  intro act' hm
  rcases List.mem_append.1 hm with h1 | h1
  · exact h act' h1
  · obtain rfl := List.mem_singleton.1 h1
    exact ha

theorem story (h : Unused j acts) : storyOf j acts = .blank := by
  have hnil : acts.filter (·.ticket? == some j) = [] := List.filter_eq_nil_iff.2 fun act ha => by
    simpa using h act ha
  rw [storyOf, hnil]
  rfl

theorem path (h : Unused j acts) : LoadsPath j p acts := fun act ha _ hsp hk =>
  absurd (by simp [Act.ticket?, hsp, hk]) (h act ha)

theorem unfinished (h : Unused j acts) : ¬ Finished j acts := by
  rintro ⟨act, ha, hk, -⟩
  exact h act ha hk

end Unused

theorem Stands.other {w : World} {inner : List Frame} {ret : Option Outcome}
    (h : Stands su p j acts w phase inner ret) (ha : act.ticket? ≠ some j) :
    Stands su p j (acts ++ [act]) w phase inner ret := by
  cases h with
  | queueing w hu => exact .queueing w (hu.snoc ha)
  | moved hacts hj hu hleaves =>
    exact .moved (by rw [hacts, List.append_assoc, List.cons_append]) hj (hu.snoc ha) hleaves

theorem Fate.other (h : Fate su c j acts) (ha : act.ticket? ≠ some j) :
    Fate su c j (acts ++ [act]) := by
  have hs : storyOf j (acts ++ [act]) = storyOf j acts := storyOf_snoc.trans (if_neg ha)
  cases h with
  | going hp hf hstands hk hready hd =>
    exact .going (hp.other ha) (not_finished_snoc hf fun h => absurd h ha) (hstands.other ha) hk hready (hs ▸ hd)
  | ended hp hf ho => exact .ended (hp.other ha) (finished_snoc.2 (.inl hf)) (hs ▸ ho)

theorem GivenUp.snoc (h : GivenUp j acts) : GivenUp j (acts ++ [act]) := by
  obtain ⟨act', hm, hrest⟩ := h
  exact ⟨act', by simp [hm], hrest⟩

/-! Callers -/

namespace InLoad

variable {inner below : List Frame}

theorem spot (h : InLoad su c acts k a p phase inner below) :
    spot? a.stack = some ⟨inner, p, phase⟩ := by
  rw [h.stack]
  exact spot?_load fun g hg => (h.below g hg).2

theorem ticket (h : InLoad su c acts k a p phase inner below) :
    a.ticket? = World.ticketOf phase := by
  simp [Activity.ticket?, h.spot]

/-- A load that has come further than to its place in line holds the lock. -/
theorem holds (h : InLoad su c acts k a p phase inner below) :
    (phase = .arriving ∨ ∃ i, phase = .queueing i) ∨ ∃ j, World.ticketOf phase = some j ∧
    k.lock.holder = some j := by
  have hg := h.grounded
  cases phase with
  | arriving => exact .inl (.inl rfl)
  | queueing i => exact .inl (.inr ⟨i, rfl⟩)
  | entered i => exact .inr ⟨i, rfl, hg.1⟩
  | loading i => exact .inr ⟨i, rfl, hg.1.1⟩
  | registering i => exact .inr ⟨i, rfl, hg.1.1⟩
  | running i => exact .inr ⟨i, rfl, hg.1.1⟩

theorem ticket_lt (h : InLoad su c acts k a p phase inner below)
    (hj : World.ticketOf phase = some j) : j < k.lock.tickets := by
  have hg := h.grounded
  cases phase with
  | arriving => simp [World.ticketOf] at hj
  | queueing i => obtain rfl := Option.some.inj hj; exact hg
  | entered i => obtain rfl := Option.some.inj hj; exact hg.2
  | loading i => obtain rfl := Option.some.inj hj; exact hg.1.2
  | registering i => obtain rfl := Option.some.inj hj; exact hg.1.2
  | running i => obtain rfl := Option.some.inj hj; exact hg.1.2

end InLoad

namespace Caller

/-- A task that keeps to the code is in no load, or about to call one. -/
theorem of_orderly (su : Setup) (acts : List Act) (k : Core)
    (h : Orderly c .task a.stack a.returned) : Caller su c acts k a ∧ a.ticket? = none := by
  cases hs : a.stack with
  | nil => exact ⟨.off h (by rw [hs]; rfl), by simp [Activity.ticket?, hs, spot?]⟩
  | cons f rest =>
    rw [hs] at h
    by_cases hf : f.isLoad = true
    · obtain ⟨p, phase, rfl⟩ : ∃ p phase, f = .load p phase := by
        cases f <;> simp [Frame.isLoad] at hf
        exact ⟨_, _, rfl⟩
      obtain ⟨hobeys, hret, hrest⟩ := h
      obtain rfl : phase = .arriving := by
        rcases hobeys.2 with h1 | ⟨_, _, h1, -⟩
        · exact h1
        · simp at h1
      have hnone : a.returned = none := by
        cases hr : a.returned with
        | none => rfl
        | some o => exact absurd (hret (by simp [hr])) (by simp [Frame.isLoad])
      have hin : InLoad su c acts k a p .arriving [] rest :=
        ⟨hs, hrest, by rw [hnone]; exact .arriving,
        trivial, by simp [World.ticketOf], by simp [World.ticketOf]⟩
      exact ⟨.on hin, hin.ticket⟩
    · have hnone : spot? a.stack = none := by
        rw [hs]
        refine spot?_eq_none fun g hg => ?_
        rcases List.mem_cons.1 hg with rfl | hg
        · simpa using hf
        · exact (h.2.2 g hg).2
      exact ⟨.off (by rw [hs]; exact h) hnone, by simp [Activity.ticket?, hnone]⟩

theorem ticket_lt (h : Caller su c acts k a) (hj : a.ticket? = some j) : j < k.lock.tickets := by
  cases h with
  | off _ hs => simp [Activity.ticket?, hs] at hj
  | on h => exact h.ticket_lt (h.ticket.symm.trans hj)

/-- A task that was left alone. -/
theorem keep (h : Caller su c acts k a) (hs : a'.stack = a.stack) (hr : a'.returned = a.returned)
    (ha : ∀ j, a.ticket? = some j → act.ticket? ≠ some j)
    (hg : ∀ sp, spot? a.stack = some sp → Grounded c k sp.phase → Grounded c k' sp.phase) :
    Caller su c (acts ++ [act]) k' a' := by
  cases h with
  | off ho hn => exact .off (by rw [hs, hr]; exact ho) (by rw [hs]; exact hn)
  | on h =>
    rw [h.ticket] at ha
    refine .on ⟨hs.trans h.stack, h.below, ?_, hg _ h.spot h.grounded,
      fun j hj => (h.path j hj).other (ha j hj),
      fun j hj => not_finished_snoc (h.unfinished j hj) fun h => absurd h (ha j hj)⟩
    rw [hr, storyFor_snoc ha]
    exact h.doing

end Caller

/-- A task is in a load, or about to call one. -/
def World.Loading (w : World) (i : Nat) : Prop := ∃ a, w.core.tasks[i]? = some a ∧
    (spot? a.stack).isSome = true

/-- A load is as well grounded as before if the lock was not taken from it, and the registry was
changed at most while it was in line. -/
theorem Grounded.beside (h : Grounded c k phase) (ht : k.lock.tickets ≤ k'.lock.tickets)
    (hh : ∀ j, World.ticketOf phase = some j → k.lock.holder = some j → k'.lock.holder = some j)
    (hr : k'.registry = k.registry ∨ ∀ j, World.ticketOf phase = some j → k.lock.holder ≠ some j) :
    Grounded c k' phase := by
  cases phase with
  | arriving => trivial
  | queueing i => exact (show i < k'.lock.tickets from h.trans_le ht)
  | entered i => exact ⟨hh i rfl h.1, h.2.trans_le ht⟩
  | loading i => exact ⟨⟨hh i rfl h.1.1, h.1.2.trans_le ht⟩,
      hr.resolve_right (fun hne => hne i rfl h.1.1) ▸ h.2⟩
  | registering i => exact ⟨⟨hh i rfl h.1.1, h.1.2.trans_le ht⟩,
      hr.resolve_right (fun hne => hne i rfl h.1.1) ▸ h.2⟩
  | running i => exact ⟨⟨hh i rfl h.1.1, h.1.2.trans_le ht⟩,
      hr.resolve_right (fun hne => hne i rfl h.1.1) ▸ h.2⟩

/-! A load moves -/

section

variable {inner below : List Frame} {s' : Story} {x x' : Activity} {t : Nat} {w w' : World}

theorem act_spot (w' : World) (hx : w.core.tasks[t]? = some x)
    (hin : InLoad su c acts w.core x p phase inner below) :
    (Act.mk (some t) w w').spot? = some ⟨inner, p, phase⟩ ∧
      (Act.mk (some t) w w').ticket? = World.ticketOf phase := by
  have h : (Act.mk (some t) w w').spot? = some ⟨inner, p, phase⟩ := by
    simp [Act.spot?, Act.activity?, hx, hin.spot]
  exact ⟨h, by simp [Act.ticket?, h]⟩

theorem act_returns {x' : Activity} (hx' : w'.core.tasks[t]? = some x') :
    (Act.mk (some t) w w').returns = ((spot? x'.stack).isNone && x'.returned.isSome) := by
  simp [Act.returns, hx']

theorem doing_blank {ret : Option Outcome} {s : Story} (h : Doing su c p s phase inner ret)
    (hk : World.ticketOf phase = none) : s = .blank := by
  cases h <;> simp [World.ticketOf] at hk
  rfl

/-- What a move of a load makes of its task, and of the load with the ticket that it has or draws.
-/
structure Mover (su : Setup) (c : Code) (phase : LoadPhase) (acts : List Act) (w w' : World)
    (x' : Activity) : Prop where
  caller : Caller su c acts w'.core x'
  ticket : ∀ j, x'.ticket? = some j → World.ticketOf phase = some j ∨ j = w.lock.tickets
  fate : ∀ j, j < w'.lock.tickets → World.ticketOf phase = some j ∨ j = w.lock.tickets →
    Fate su c j acts ∧ (Finished j acts ∨ GivenUp j acts ∨ w'.Within j)

namespace InLoad

variable (hin : InLoad su c acts w.core x p phase inner below)
include hin

theorem unfinished_snoc (hr : (Act.mk (some t) w w').returns = false)
    (hj : World.ticketOf phase = some j) :
    ¬ Finished j (acts ++ [⟨some t, w, w'⟩]) := not_finished_snoc (hin.unfinished j hj) fun _ => hr

variable (hx : w.core.tasks[t]? = some x)
include hx

theorem path_snoc (hj : World.ticketOf phase = some j) :
    LoadsPath j p (acts ++ [⟨some t, w, w'⟩]) :=
  (hin.path j hj).own (act_spot w' hx hin).1 rfl

theorem stands {phase' : LoadPhase} {inner' : List Frame} {ret' : Option Outcome}
    (hj : World.ticketOf phase = some j)
    (hleaves : (Act.mk (some t) w w').leaves su = (inner' ++ .load p phase' :: below, ret')) :
    Stands su p j (acts ++ [⟨some t, w, w'⟩]) w' phase' inner' ret' :=
  .moved rfl ((act_spot w' hx hin).2.trans hj) (by simp [Unused]) hleaves

variable (hs : ∀ j, World.ticketOf phase = some j → storyOf j (acts ++ [⟨some t, w, w'⟩]) = s')
variable (hx' : w'.core.tasks[t]? = some x')
include hs hx'

/-- The load goes on, with the ticket it has. -/
theorem goes_on {phase' : LoadPhase} {inner' : List Frame}
    (hk : World.ticketOf phase' = World.ticketOf phase)
    (hl : w'.lock = w.lock) (hstack : x'.stack = inner' ++ .load p phase' :: below)
    (hleaves : (Act.mk (some t) w w').leaves su = (inner' ++ .load p phase' :: below, x'.returned))
    (hd : Doing su c p s' phase' inner' x'.returned) (hg : Grounded c w'.core phase') :
    Mover su c phase (acts ++ [⟨some t, w, w'⟩]) w w' x' := by
  have hr : (Act.mk (some t) w w').returns = false := by
    rw [act_returns hx', hstack, spot?_load fun g hg => (hin.below g hg).2]
    rfl
  have hin' : InLoad su c (acts ++ [⟨some t, w, w'⟩]) w'.core x' p phase' inner' below := by
    refine ⟨hstack, hin.below, ?_, hg, fun j hj => hin.path_snoc hx (hk ▸ hj),
      fun j hj => hin.unfinished_snoc hr (hk ▸ hj)⟩
    unfold storyFor
    cases hj : World.ticketOf phase' with
    | none => exact doing_blank hd hj ▸ hd
    | some j =>
      show Doing su c p (storyOf j _) phase' inner' x'.returned
      rw [hs j (hk ▸ hj)]
      exact hd
  refine ⟨.on hin', fun j hj => .inl (by rw [← hk, ← hin'.ticket, hj]), fun j hj ho => ?_⟩
  rw [hl] at hj
  have hown : World.ticketOf phase = some j := ho.resolve_right hj.ne
  exact ⟨.going (hin'.path j (hk.trans hown)) (hin'.unfinished j (hk.trans hown))
      (hin.stands hx hown hleaves) (hk.trans hown) hg.ready ((hs j hown).symm ▸ hd),
    .inr (.inr ⟨t, x', hx', hin'.ticket.trans (hk.trans hown)⟩)⟩

/-- The load is given up when it is to wait. -/
theorem dropped {phase' : LoadPhase} {inner' : List Frame} {ret' : Option Outcome}
    (hk : World.ticketOf phase' = World.ticketOf phase) (hl : w'.lock = w.lock.without (World.ticketOf phase))
    (hstack : x'.stack = [])
    (hret : x'.returned = none) (hend : x'.ended = some .cancelled)
    (hleaves : (Act.mk (some t) w w').leaves su = (inner' ++ .load p phase' :: below, ret'))
    (hd : Doing su c p s' phase' inner' ret') (hg : Ready c w'.registry phase') :
    Mover su c phase (acts ++ [⟨some t, w, w'⟩]) w w' x' := by
  have hr : (Act.mk (some t) w w').returns = false := by simp [act_returns hx', hret]
  refine ⟨.off (by rw [hstack]; trivial) (by rw [hstack]; rfl),
    fun j hj => by simp [Activity.ticket?, hstack, spot?] at hj,
    fun j hj ho => ?_⟩
  rw [hl, Lock.tickets_without] at hj
  have hown : World.ticketOf phase = some j := ho.resolve_right hj.ne
  exact ⟨.going (hin.path_snoc hx hown) (hin.unfinished_snoc hr hown) (hin.stands hx hown hleaves)
      (hk.trans hown) hg ((hs j hown).symm ▸ hd),
    .inr (.inl ⟨⟨some t, w, w'⟩, by simp, t, x, x', hx, hin.ticket.trans hown, hx', hend⟩)⟩

/-- The load returns to the task that called it. -/
theorem leaves {o : Outcome} (hl : w'.lock = w.lock.without (World.ticketOf phase))
    (hstack : x'.stack = below)
    (hret : x'.returned = some o) (hover : Over su c p s' o) :
    Mover su c phase (acts ++ [⟨some t, w, w'⟩]) w w' x' := by
  have hnone : spot? x'.stack = none := by
    rw [hstack]
    exact spot?_eq_none fun g hg => (hin.below g hg).2
  have hr : (Act.mk (some t) w w').returns = true := by simp [act_returns hx', hret, hnone]
  have horderly : Orderly c .task x'.stack x'.returned := by
    rw [hstack]
    have hb := hin.below
    cases below with
    | nil => trivial
    | cons g rest => exact ⟨(hb g (by simp)).1, fun _ => (hb g (by simp)).2,
        fun g' hg' => hb g' (by simp [hg'])⟩
  refine ⟨.off horderly hnone, fun j hj => by simp [Activity.ticket?, hnone] at hj,
    fun j hj ho => ?_⟩
  rw [hl, Lock.tickets_without] at hj
  have hown : World.ticketOf phase = some j := ho.resolve_right hj.ne
  have hfin : Finished j (acts ++ [⟨some t, w, w'⟩]) :=
    finished_snoc.2 (.inr ⟨(act_spot w' hx hin).2.trans hown, hr⟩)
  exact ⟨.ended (hin.path_snoc hx hown) hfin ((hs j hown).symm ▸ hover), .inl hfin⟩

end InLoad

/-- A load has drawn its ticket. -/
theorem InLoad.draws (hin : InLoad su c acts w.core x p .arriving inner below)
    (hu : Unused w.lock.tickets acts)
    (hx : w.core.tasks[t]? = some x) (hx' : w'.core.tasks[t]? = some x')
    (hl : w'.lock = (w.lock.arrive t).2)
    (hstack : x'.stack = .load p (.queueing w.lock.tickets) :: below) (hret : x'.returned = none) :
    Mover su c .arriving (acts ++ [⟨some t, w, w'⟩]) w w' x' := by
  have hne : (Act.mk (some t) w w').ticket? ≠ some w.lock.tickets := by
    rw [(act_spot w' hx hin).2]
    simp [World.ticketOf]
  replace hu := hu.snoc hne
  have htickets : w'.lock.tickets = w.lock.tickets + 1 := by
    rw [hl]
    unfold Lock.arrive
    split <;> rfl
  have hin' : InLoad su c (acts ++ [⟨some t, w, w'⟩]) w'.core x' p (.queueing w.lock.tickets) [] below := by
    refine ⟨hstack, hin.below, ?_, ?_, fun j hj => Option.some.inj hj ▸ hu.path,
      fun j hj => Option.some.inj hj ▸ hu.unfinished⟩
    · rw [hret, show storyFor _ (.queueing w.lock.tickets) = _ from hu.story]
      exact .queueing _
    · show w.lock.tickets < w'.lock.tickets
      omega
  have hdoing : Doing su c p (storyOf w.lock.tickets (acts ++ [⟨some t, w, w'⟩]))
      (.queueing w.lock.tickets) [] none := hret ▸ hin'.doing
  refine ⟨.on hin', fun j hj => .inr (Option.some.inj (hj.symm.trans hin'.ticket)),
    fun j _ ho => ?_⟩
  obtain rfl : j = w.lock.tickets := ho.resolve_left (by simp [World.ticketOf])
  exact ⟨.going hu.path hu.unfinished (.queueing w' hu) rfl trivial hdoing, .inr (.inr ⟨t, x', hx', hin'.ticket⟩)⟩

/-- The task that a load is in, after a move of the load. -/
theorem InLoad.mover (hin : InLoad su c acts w.core x p phase inner below)
    (hu : Unused w.lock.tickets acts) (hx : w.core.tasks[t]? = some x)
    (hx' : w'.core.tasks[t]? = some x')
    (hs : ∀ j, World.ticketOf phase = some j → storyOf j (acts ++ [⟨some t, w, w'⟩]) = s')
    (hout : Outcomes su c p t s' phase below w w' x') :
    Mover su c phase (acts ++ [⟨some t, w, w'⟩]) w w' x' := by
  cases hout with
  | drew hp hl hstack hret =>
    subst hp
    exact hin.draws hu hx hx' hl hstack hret
  | on hk hl hstack hleaves hd hg => exact hin.goes_on hx hs hx' hk hl hstack hleaves hd hg
  | dropped hk hl hstack hret hend hleaves hd hg =>
    exact hin.dropped hx hs hx' hk hl hstack hret hend hleaves hd hg
  | off hk hl hstack hret ho => exact hin.leaves hx hs hx' (by rw [hl, hk]) hstack hret ho

/-- The lock after a move of a load. -/
structure Handed (phase : LoadPhase) (l l' : Lock) : Prop where
  line : ∀ first granted, Line first l granted → Line first l' (granted ++ l.handed l')
  tickets : l.tickets ≤ l'.tickets
  drawn : l'.tickets ≤ l.tickets + 1
  holder : ∀ j, l.holder = some j → World.ticketOf phase ≠ some j → l'.holder = some j

theorem handed (hm : Outcomes su c p t s' phase below w w' x) : Handed phase w.lock w'.lock := by
  have same (hl : w'.lock = w.lock) : Handed phase w.lock w'.lock := by
    rw [hl]
    exact ⟨fun _ _ h => h.same, le_rfl, Nat.le_succ _, fun _ h _ => h⟩
  have without (hl : w'.lock = w.lock.without (World.ticketOf phase)) : Handed phase w.lock w'.lock := by
    rw [hl]
    refine ⟨fun _ _ h => h.without _, (Lock.tickets_without ..).ge, ?_,
      fun _ h hk => Lock.holder_without h hk⟩
    rw [Lock.tickets_without]
    exact Nat.le_succ _
  cases hm with
  | drew hp hl =>
    rw [hl]
    have htickets : (w.lock.arrive t).2.tickets = w.lock.tickets + 1 := by
      unfold Lock.arrive; split <;> rfl
    exact ⟨fun _ _ h => h.arrive t, by omega, htickets.le, fun j hj _ => by simp [Lock.arrive, hj]⟩
  | on _ hl => exact same hl
  | dropped _ hl => exact without hl
  | off hk hl => exact without (by rw [hl, hk])

end

end PageTest
