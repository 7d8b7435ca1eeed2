import PageTest.Proofs.Load.Ledger
import PageTest.Proofs.Load.Onward

/-! Tasks that call loads. A task is in the middle of one load at most, and below the load it keeps
to the code. One move of such a task takes the load on, ends it, or gives it up with the whole task.
-/

namespace PageTest

/-- The lock after a load was given up. -/
def Lock.without (l : Lock) : Option Nat → Lock
  | none => l
  | some k => (l.leave k).2

theorem Lock.tickets_without (l : Lock) (o : Option Nat) : (l.without o).tickets = l.tickets := by
  cases o with
  | none => rfl
  | some k =>
    simp only [without, leave, release]
    split_ifs
    · split <;> rfl
    · rfl

/-- A load that holds the lock keeps it while another one is given up. -/
theorem Lock.holder_without {l : Lock} {o : Option Nat} {j : Nat} (h : l.holder = some j)
    (ho : o ≠ some j) : (l.without o).holder = some j := by
  cases o with
  | none => exact h
  | some k =>
    have hk : ¬ l.holder = some k := fun hk => ho (by rw [← hk, h])
    show (l.leave k).2.holder = some j
    rw [leave, if_neg hk]
    exact h

theorem Line.without {first : Nat} {l : Lock} {granted : List Nat} (h : Line first l granted)
    (o : Option Nat) : Line first (l.without o) (granted ++ l.handed (l.without o)) := by
  cases o with
  | none => exact h.same
  | some k => exact h.leave k

theorem spot?_top {f : Frame} {rest : List Frame} (h : spot? (f :: rest) = none) :
    f.isLoad = false := by
  unfold spot? at h
  cases hr : spot? rest with
  | some sp => simp [hr] at h
  | none =>
    rw [hr] at h
    cases f with
    | load p phase => simp at h
    | _ => rfl

/-- Giving up a stack with one load on it. -/
theorem Core.dropLocks_load {inner below : List Frame} {p : String} {phase : LoadPhase} (l : Lock)
    (hi : ∀ f ∈ inner, f.isLoad = false) (hb : ∀ f ∈ below, f.isLoad = false) :
    Core.dropLocks l (inner ++ .load p phase :: below) = l.without (World.ticketOf phase) := by
  have none (fs : List Frame) (hf : ∀ f ∈ fs, f.isLoad = false) (l : Lock) : Core.dropLocks l fs = l := by
    induction fs with
    | nil => rfl
    | cons f fs ih =>
      have hone : Core.dropLocks l (f :: fs) = Core.dropLocks l fs := by
        have := hf f (by simp)
        cases f with
        | load => simp [Frame.isLoad] at this
        | _ => rfl
      rw [hone, ih fun g hg => hf g (by simp [hg])]
  have split (l : Lock) (xs ys : List Frame) : Core.dropLocks l (xs ++ ys) = Core.dropLocks (Core.dropLocks l xs) ys :=
    List.foldl_append
  rw [split, none inner hi]
  have : Core.dropLocks l (.load p phase :: below) = Core.dropLocks (l.without (World.ticketOf phase)) below := by
    cases phase <;> rfl
  rw [this, none below hb]

/-- What has become of a load, and of the task that called it, with a move of the task. -/
inductive Outcomes (su : Setup) (c : Code) (p : String) (t : Nat) (s' : Story) (phase : LoadPhase)
    (below : List Frame) (w w' : World) (a' : Activity) : Prop
  | drew : phase = .arriving → w'.lock = (w.lock.arrive t).2 →
      a'.stack = .load p (.queueing w.lock.tickets) :: below → a'.returned = none →
      Outcomes su c p t s' phase below w w' a'
  | on {phase' : LoadPhase} {inner' : List Frame} : World.ticketOf phase' = World.ticketOf phase →
      w'.lock = w.lock → a'.stack = inner' ++ .load p phase' :: below →
      (Act.mk (some t) w w').leaves su = (inner' ++ .load p phase' :: below, a'.returned) →
      Doing su c p s' phase' inner' a'.returned →
      Grounded c w'.core phase' → Outcomes su c p t s' phase below w w' a'
  | dropped {phase' : LoadPhase} {inner' : List Frame} {ret' : Option Outcome} :
      World.ticketOf phase' = World.ticketOf phase →
      w'.lock = w.lock.without (World.ticketOf phase) → a'.stack = [] →
      a'.returned = none → a'.ended = some .cancelled →
      (Act.mk (some t) w w').leaves su = (inner' ++ .load p phase' :: below, ret') →
      Doing su c p s' phase' inner' ret' → Ready c w'.registry phase' →
      Outcomes su c p t s' phase below w w' a'
  | off {k : Nat} {o : Outcome} : World.ticketOf phase = some k →
      w'.lock = w.lock.without (some k) →
      a'.stack = below → a'.returned = some o → Over su c p s' o →
        Outcomes su c p t s' phase below w w' a'

/-- A move of a task that is in a load. -/
structure LoadMoved (su : Setup) (c : Code) (p : String) (t : Nat) (s s' : Story)
    (phase : LoadPhase) (below : List Frame) (w w' : World) : Prop where
  aside : Aside c false t w.core w'.core
  history : w'.log.history = w.log.history ++ (Act.mk (some t) w w').entries
  told : s'.log = s.log ++ (Act.mk (some t) w w').entries
  /-- A load in line does nothing. -/
  waits : (phase = .arriving ∨ ∃ k, phase = .queueing k) →
    s' = s ∧ (Act.mk (some t) w w').entries = [] ∧ w'.registry = w.registry
  after : ∃ a', w'.core.tasks[t]? = some a' ∧ Outcomes su c p t s' phase below w w' a'

section

variable {su : Setup} {c : Code} {p : String} {s : Story} {phase : LoadPhase}
variable {inner below : List Frame} {a : Activity} {t : Nat} {w : World}

/-- A load that is about to draw its ticket. -/
theorem turn_arriving (ha : w.core.tasks[t]? = some a) (hs : a.stack = .load p .arriving :: below)
    (hr : a.returned = none) (hb : ∀ f ∈ below, f.isLoad = false) :
    LoadMoved su c p t .blank .blank .arriving below w (w.runTask su t) := by
  have hcore := World.core_runTask su ha hs
  have hlt := lt_of_getElem? ha
  rw [hr] at hcore
  have hact : (Frame.load p .arriving).act su w t none = Frame.runLoad su w t p .arriving := rfl
  by_cases h0 : w.allowance = 0
  · have hrun : Frame.runLoad su w t p .arriving = (w.standBack t, .halt (.load p .arriving)) :=
      if_pos h0
    rw [hact, hrun] at hcore
    have hreach : Reach c false w.core (w.standBack t).core := Reach.refl w.core
    have hlog : (w.runTask su t).log = w.log := (congrArg Core.log hcore).trans (Core.settle_log ..)
    have hh : (w.runTask su t).log.history = w.log.history ++ [] := by rw [hlog, List.append_nil]
    have hreg : (w.runTask su t).registry = w.registry :=
      (congrArg Core.registry hcore).trans (Core.settle_registry ..)
    have hav : (w.standBack t).core.tasks[t]? = some a := ha
    have hself : (w.runTask su t).core.tasks[t]? = some (a.moved below (.halt (.load p .arriving))) := by
      rw [hcore, Core.settle_self hav]
    have hlock := (congrArg Core.lock hcore).trans (Core.settle_lock hav)
    have hleaves : (Act.mk (some t) w (w.runTask su t)).leaves su = (.load p .arriving :: below, none) := by
      rw [Act.leaves_eq su _ ha hs, hr, hact, hrun]
      rfl
    refine ⟨by rw [hcore]; exact hreach.aside hlt, by rw [Act.entries_eq hh]; exact hh, by rw [Act.entries_eq hh]; rfl,
      fun _ => ⟨rfl, Act.entries_eq hh, hreg⟩, _, hself, ?_⟩
    by_cases hk : a.cancelled = true
    · rw [if_pos ⟨rfl, hk⟩] at hlock
      simp only [Activity.moved, hk, if_true]
      refine .dropped rfl ?_ rfl rfl rfl (hleaves.trans rfl : _ = ([] ++ _ :: below, _)) .arriving trivial
      exact hlock.trans (Core.dropLocks_load _ (by simp : ∀ f ∈ ([] : List Frame), f.isLoad = false) hb)
    · rw [if_neg (by simp [hk])] at hlock
      simp only [Activity.moved, hk]
      exact .on rfl hlock (rfl : _ = [] ++ _ :: below) (hleaves.trans rfl) .arriving trivial
  · have hrun : Frame.runLoad su w t p .arriving =
        ({ w with lock := (w.lock.arrive t).2 }, .goOn (.load p (.queueing (w.lock.arrive t).1))) :=
        if_neg h0
    have hticket : (w.lock.arrive t).1 = w.lock.tickets := by unfold Lock.arrive; split <;> rfl
    rw [hact, hrun, hticket] at hcore
    have hreach : Reach c false w.core ({ w with lock := (w.lock.arrive t).2 } : World).core :=
      { (Reach.refl w.core : Reach c false w.core w.core) with }
    have hlog : (w.runTask su t).log = w.log := congrArg Core.log hcore
    have hh : (w.runTask su t).log.history = w.log.history ++ [] := by rw [hlog, List.append_nil]
    have hav : ({ w with lock := (w.lock.arrive t).2 } : World).core.tasks[t]? = some a := ha
    refine ⟨by rw [hcore]; exact hreach.aside hlt, by rw [Act.entries_eq hh]; exact hh, by rw [Act.entries_eq hh]; rfl,
      fun _ => ⟨rfl, Act.entries_eq hh, (congrArg Core.registry hcore :)⟩,
      a.put (.load p (.queueing w.lock.tickets) :: below) none, ?_, ?_⟩
    · rw [hcore, Core.settle_self hav]
      rfl
    · exact .drew rfl (congrArg Core.lock hcore) rfl rfl

/-- A load in line does nothing. -/
theorem runTask_queueing {ret : Option Outcome} {k : Nat}
    (hd : Doing su c p s (.queueing k) inner ret)
    (ha : w.core.tasks[t]? = some a) (hs : a.stack = inner ++ .load p (.queueing k) :: below) (hr : a.returned = ret) :
    (Act.mk (some t) w (w.runTask su t)).entries = [] ∧ (w.runTask su t).registry = w.registry := by
  cases hd
  have hcore := World.core_runTask su ha hs
  rw [hr] at hcore
  have hrun : ((Frame.load p (.queueing k)).act su w t none).1.core = w.core := by
    show (Frame.runLoad su w t p (.queueing k)).1.core = w.core
    unfold Frame.runLoad
    dsimp only
    split_ifs <;> rfl
  have hlog : (w.runTask su t).log = w.log := by
    have := (congrArg Core.log hcore).trans (Core.settle_log ..)
    rw [hrun] at this
    exact this
  have hreg : (w.runTask su t).registry = w.registry := by
    have := (congrArg Core.registry hcore).trans (Core.settle_registry ..)
    rw [hrun] at this
    exact this
  exact ⟨Act.entries_eq (by rw [hlog, List.append_nil]), hreg⟩

/-- A load with a ticket. -/
theorem turn_ticket (hd : Doing su c p s phase inner a.returned) (hg : Grounded c w.core phase)
    (ha : w.core.tasks[t]? = some a) (hs : a.stack = inner ++ .load p phase :: below)
    (hb : ∀ f ∈ below, f.isLoad = false) (hc : ∀ sc ∈ su.catalog, sc.obeys c = true)
    (hl : c.body.loads = false)
    (hk : phase ≠ .arriving) :
    LoadMoved su c p t s (s.observe phase inner a.returned w.registry.tests (Act.mk (some t) w (w.runTask su t)).entries)
      phase below w (w.runTask su t) := by
  have hlt := lt_of_getElem? ha
  obtain ⟨f, rest, hf⟩ : ∃ f rest, inner ++ .load p phase :: below = f :: rest := 
    List.exists_cons_of_ne_nil (by simp)
  have hp := hd.act t hc hg hf
  have hcore := World.core_runTask su ha (hs.trans hf)
  have hwaits : (phase = .arriving ∨ ∃ k, phase = .queueing k) →
      s.observe phase inner a.returned w.registry.tests (Act.mk (some t) w (w.runTask su t)).entries = s ∧
        (Act.mk (some t) w (w.runTask su t)).entries = [] ∧
        (w.runTask su t).registry = w.registry := by
    rintro (h | ⟨k, rfl⟩)
    · exact absurd h hk
    · obtain ⟨hes, hreg⟩ := runTask_queueing hd ha hs rfl
      exact ⟨by rw [hes]; exact s.closing_nil, hes, hreg⟩
  rcases hact : f.act su w t a.returned with ⟨v, m⟩
  rw [hact] at hp hcore
  have hlog : (w.runTask su t).log = v.log := (congrArg Core.log hcore).trans (Core.settle_log ..)
  cases hp with
  | on es s' phase' inner' ret' hadv ht hm hd' hg' hkeep =>
    have hh : (w.runTask su t).log.history = w.log.history ++ es := by rw [hlog, hadv.history]
    have hes := Act.entries_eq (m := some t) hh
    obtain ⟨b, hb', -⟩ := hadv.reach.old t a ha
    have hself : (w.runTask su t).core.tasks[t]? = some (b.moved rest m) := by
      rw [hcore, Core.settle_self hb']
    have hlock := (congrArg Core.lock hcore).trans (Core.settle_lock hb')
    have hreg : v.core.registry = (w.runTask su t).registry :=
      ((congrArg Core.registry hcore).trans (Core.settle_registry ..)).symm
    have hleaves := Act.leaves_eq su (w.runTask su t) ha (hs.trans hf)
    rw [hact] at hleaves
    obtain ⟨hticket, hv⟩ : World.ticketOf phase' = World.ticketOf phase ∧ v.lock = w.lock := by
      cases hkeep with
      | arrive => exact absurd rfl hk
      | keep h1 _ _ h2 => exact ⟨h1, h2 hl⟩
    refine ⟨by rw [hcore]; exact hadv.reach.aside hlt, by rw [hes]; exact hh, by rw [hes, ht.story]; exact ht.log, hwaits,
      _, hself, ?_⟩
    rw [hes, ht.story]
    by_cases hw : m.waits = true ∧ b.cancelled = true
    · rw [if_pos hw, hm, Core.dropLocks_load _ (hd'.no_load hl) hb, hticket] at hlock
      rw [Activity.moved_cancelled hw]
      exact .dropped hticket (hlock.trans (by rw [show v.core.lock = w.lock from hv])) rfl rfl rfl
        (hleaves.trans hm) hd' (hreg ▸ hg'.ready)
    · rw [if_neg hw] at hlock
      rw [Activity.moved_onto hw, hm]
      refine .on hticket (hlock.trans hv) rfl (hleaves.trans hm) hd' (hg'.congr ?_ ?_)
      · exact hlock
      · rw [hcore, Core.settle_registry]
  | @off _ k o es s' hadv ht hrest hticket hv ho =>
    subst hrest
    have hh : (w.runTask su t).log.history = w.log.history ++ es := by rw [hlog, hadv.history]
    have hes := Act.entries_eq (m := some t) hh
    obtain ⟨b, hb', -⟩ := hadv.reach.old t a ha
    have hself : (w.runTask su t).core.tasks[t]? = some (b.moved rest (.leave o)) := by
      rw [hcore, Core.settle_self hb']
    refine ⟨by rw [hcore]; exact hadv.reach.aside hlt, by rw [hes]; exact hh, by rw [hes, ht.story]; exact ht.log, hwaits,
      _, hself, ?_⟩
    rw [hes, ht.story]
    exact .off hticket ((congrArg Core.lock hcore).trans hv) rfl rfl ho

end

end PageTest
