import PageTest.Proofs.Polling.Rounds
import PageTest.Proofs.Polling.Blind
import PageTest.Proofs.Polling.Apace

/-! A driver's rounds change nothing for the others. Take the driver out of its world: what is left
goes the way of a world without any driver, up to the return. When that is, is told by that way
alone: as soon as the load has ended and nobody has or wants a turn. -/

namespace PageTest

namespace World

/-- The task `L` has ended, and nobody has or wants a turn. -/
def Settled (L : Nat) (w : World) : Prop :=
  w.running = none ∧ w.ready = [] ∧ (w.ended? L).isSome = true

/-- The world at the beginning of the first round after the task `L` has ended. -/
inductive Settles (su : Setup) (L : Nat) : World → World → Prop
  | now {w : World} : w.Settled L → Settles su L w w.wakeYielding
  | later {w v u : World} : ¬ w.Settled L → w.step? su = some v → Settles su L v u → Settles su L w u

/-- There is one such world at most. -/
theorem Settles.unique {su : Setup} {L : Nat} {w u u' : World} (h : Settles su L w u) (h' : Settles su L w u') :
    u = u' := by
  induction h with
  | now hs =>
    cases h' with
    | now => rfl
    | later hn => exact absurd hs hn
  | later hn hstep _ ih =>
    cases h' with
    | now hs => exact absurd hs hn
    | later _ hstep' h' =>
      obtain rfl := Option.some.inj (hstep.symm.trans hstep')
      exact ih h'

end World

open World

variable {su : Setup} {ms secs L t n a : Nat} {w v w' r : World}

/-- A time and an allowance at which a world may be looked at without its driver. Only while nobody else
is about to move do they differ from its own. -/
structure World.Shows (L : Nat) (w : World) (n a : Nat) : Prop where
  clock : n = w.now ∨ (n ≤ w.now ∧ w.ended? L = none ∧ (w.running = none ∨ w.running = some 0) ∧
    w.ready = [] ∧ w.yielding = [])
  allowance : w.running = none ∨ w.running = some 0 ∨ a = w.allowance

/-- The driver's world goes the way of a world `r` that has no driver, or has come to where that is
settled, and the driver has its turn. -/
inductive Escorts (su : Setup) (L : Nat) (r w : World) : Prop
  | along {n a : Nat} : w.Shows L n a → w.Hidden → w.Lone L → Heedless (w.veil n a) →
      (w.running = some 0 → w.ended? L = none) →
      (∀ u, Settles su L (w.veil n a) u → Settles su L r u) → Escorts su L r w
  | home {a : Nat} : w.running = some 0 → w.Lone L → (w.ended? L).isSome = true →
      Settles su L r (w.veil w.now a) → Escorts su L r w

namespace Escorts

variable {p : String} {t₀ : Nat} {below : List Frame} {acts : List Act} {d : Drive} {phase : DrivePhase}

theorem lone_of_waiter (h : w.waiter? L = some 0) : w.Lone L := fun t ht => by
  rw [h] at ht
  exact (Option.some.inj ht).symm

/-- The driver moves. -/
theorem driver (h : AtWork (su.polling ms secs) p L t₀ below acts w d phase) (he : Escorts su L r w)
    (hp : 1 ≤ ms) (hr : w.running = some 0) (hin : w.ended? L = none → w.now < t₀ + secs * 1000)
    (hon : ((w.runTask (su.polling ms secs) 0).ended? L).isSome = true ∨
      ∃ d' phase', (w.runTask (su.polling ms secs) 0).Drives d' phase' below) :
    Escorts su L r (w.runTask (su.polling ms secs) 0) := by
  have hL := h.poised.load_ne
  have hlone : w.Lone L := by cases he <;> assumption
  obtain ⟨hnow, hveil, hrun⟩ := apace_runTask (su.polling ms secs) hp hr h.drives (h.load ▸ hL)
    (h.load ▸ hlone) fun hph => h.deadline ▸ hin (h.ended_of_look hph)
  set v := w.runTask (su.polling ms secs) 0
  have hended : v.ended? L = w.ended? L := by
    rw [← ended?_veil (n := 0) (a := 0) v hL, hveil, ended?_veil w hL]
  have hlone' : v.Lone L := by
    rw [lone_iff (n := 0) (a := 0) hL, hveil]
    exact (lone_iff hL).1 hlone
  cases he with
  | @along n a hs hh _ hl h0 hway =>
    have hnone := h0 hr
    obtain ⟨d', phase', x, hx, hst, -⟩ := hon.resolve_left (by simp [hended, hnone])
    have hlock : v.lock = w.lock := (congrArg World.lock (hveil 0 0) :)
    have hhandles : v.handles = w.handles := (congrArg World.handles (hveil 0 0) :)
    have hidden : v.Hidden := ⟨⟨x, hx, fun l => by simp [World.awaits, hst]⟩, by rw [hlock]; exact hh.queue,
      by rw [hhandles]; exact hh.handles⟩
    have hrun' : v.running = none ∨ v.running = some 0 := by
      rw [hrun]
      split_ifs
      · exact .inl rfl
      · exact .inr rfl
    refine .along ⟨?_, hrun'.imp_right .inl⟩ hidden hlone' (by rw [hveil]; exact hl) (fun _ => hended.trans hnone)
      (by rw [hveil]; exact hway)
    rcases hs.clock with h1 | ⟨h1, -, -, h2, h3⟩
    · exact .inl (h1.trans hnow.symm)
    · exact .inr ⟨h1.trans hnow.ge, hended.trans hnone, hrun', (congrArg World.ready (hveil 0 0)).trans h2,
        (congrArg World.yielding (hveil 0 0)).trans h3⟩
  | @home a _ _ hend hway =>
    have hw : (Frame.runDrive (su.polling ms secs) w 0 d phase).2.waits = false :=
      Frame.waits_runDrive _ w 0 d (h.load.symm ▸ hend) fun hph => by
        simp [h.ended_of_look hph] at hend
    exact .home (a := a) (by simp [hrun, hw]) hlone' (hended.symm ▸ hend) (by rw [hveil, hnow]; exact hway)

/-- Another task moves. -/
theorem other (h : AtWork (su.polling ms secs) p L t₀ below acts w d phase) (he : Escorts su L r w)
    (hu : su.Unread) (hr : w.running = some t) (ht : t ≠ 0) : Escorts su L r (w.runTask (su.polling ms secs) t) := by
  have h0 : w.running ≠ some 0 := by simpa [hr] using ht
  cases he with
  | home h1 => exact absurd h1 h0
  | @along n a hs hh _ hl _ hway =>
    obtain rfl : n = w.now := hs.clock.resolve_right fun h1 => by simp [hr, ht] at h1
    obtain rfl : a = w.allowance := (hs.allowance.resolve_left (by simp [hr])).resolve_left h0
    rw [show w.veil w.now w.allowance = w.hood from rfl] at hl hway
    have hframes : ∀ x, w.task? t = some x → ∀ f ∈ x.stack, f.Unread ∧ f.Spares L := fun x hx f hf => by
      refine ⟨hl.frames t x.veil.activity ?_ f hf, h.poised.spares t x ht hx f hf⟩
      rw [getElem?_core, hood, task?_veil w ht, hx]
      rfl
    obtain ⟨hv, hh'⟩ := blind_runTask su ms secs hh ht hframes
    have hrun : w.hood.running = some t := by simp [hood, veil, hr, ht, Option.filter]
    have hstep : w.hood.step? su = some (w.hood.runTask su t) := by simp [step?, hrun]
    have hwaiter := (aloof_runTask (su.polling ms secs) h.poised ht).waiter (h.awaits h0).waiter
    refine .along (n := _) (a := _) ⟨.inl rfl, .inr (.inr rfl)⟩ hh' (lone_of_waiter hwaiter) ?_
      (fun h1 => absurd h1 (running_runTask hr 0 ht.symm)) fun u hsu => hway u (.later ?_ hstep ?_)
    · show Heedless (World.hood _)
      rw [← hv]
      exact hl.step hu hstep
    · simp [Settled, hrun]
    · rw [hv]
      exact hsu

/-- Another task has a turn, or is given up. -/
theorem handed {ready : List Nat} (h : AtWork (su.polling ms secs) p L t₀ below acts w d phase) (he : Escorts su L r w)
    (hu : su.Unread) (hr : w.running = none) (hq : w.ready = t :: ready) :
    Escorts su L r ({ w with ready }.turn t) := by
  have ht : t ≠ 0 := fun he => h.poised.ready (by simp [hq, he])
  cases he with
  | home h1 => simp [hr] at h1
  | @along n a hs hh _ hl _ hway =>
    obtain rfl : n = w.now := hs.clock.resolve_right fun h1 => by simp [hq] at h1
    have hh' : World.Hidden { w with ready } := ⟨hh.main, hh.queue, hh.handles⟩
    obtain ⟨a', hv, hh'', hnow, ha'⟩ := veil_turn hh' hr ht w.now a
    have hstep : (w.veil w.now a).step? su = some ((World.veil { w with ready } w.now a).turn t) := by
      have h1 : (w.veil w.now a).running = none := by simp [veil, hr, Option.filter]
      have h2 : (w.veil w.now a).ready = t :: ready := hq
      have h3 : World.veil { w with ready } w.now a = { w.veil w.now a with running := none, ready } := by
        simp [veil, hr, Option.filter]
      simp only [step?, h1, h2, h3]
    have hand := World.handed L ht (v := { w with ready }) hr
    have hwaiter := hand.aloof.waiter (h.awaits (by simp [hr])).waiter
    have hsh := hl.step hu hstep
    rw [hv] at hsh hstep
    generalize World.turn { w with ready } t = v at *
    refine .along (n := w.now) (a := a') ⟨.inl hnow.symm, ha'.imp_right .inr⟩ hh'' (lone_of_waiter hwaiter) hsh
      (fun h1 => absurd (hand.running 0 h1).1 ht.symm) fun u hsu => hway u (.later ?_ hstep hsu)
    simp [Settled, veil, hq]

/-- A round begins while the load is under way: how the world looks at a time and with an allowance is
what the others go on from. -/
theorem begun {k b : Nat} (hL : L ≠ 0) (hr : v.running = none) (hh : v.Hidden) (hw : v.waiter? L = some 0)
    (he : v.ended? L = none) (hk : k = v.now ∨ (k ≤ v.now ∧ v.ready = [] ∧ v.yielding = []))
    (hl : Heedless (v.veil k b)) (hway : ∀ u, Settles su L (v.veil k b) u → Settles su L r u) :
    Escorts su L r v.beginRound := by
  have hb := World.begun L hL hr
  have hveil := veil_beginRound hr k b
  have hrun : v.beginRound.running = none ∨ v.beginRound.running = some 0 := by
    rw [running_beginRound hr]
    split_ifs
    · exact .inr rfl
    · exact .inl rfl
  refine .along (n := k) (a := b) ⟨?_, hrun.imp_right .inl⟩ (hidden_beginRound hh)
    (lone_of_waiter (hb.awaits hw fun h1 => by simp [he] at h1).waiter) (by rw [hveil]; exact hl)
    (fun _ => hb.ended.trans he) (by rw [hveil]; exact hway)
  rw [hb.now, hb.ready]
  refine hk.imp_right fun h1 => ⟨h1.1, hb.ended.trans he, hrun, h1.2.1, ?_⟩
  exact (congrArg World.yielding hveil :).trans h1.2.2

/-- Nobody is ready, and a round begins. If the load has ended, this is where the way is settled. -/
theorem yielded (h : AtWork (su.polling ms secs) p L t₀ below acts w d phase) (he : Escorts su L r w)
    (hu : su.Unread) (hr : w.running = none) (hq : w.ready = []) :
    Escorts su L r w.wakeYielding.beginRound := by
  have hL := h.poised.load_ne
  have ha := h.awaits (by simp [hr])
  have hal : Aloof L w w.wakeYielding := .wakeYielding w
  have hcore := core_wakeYielding w
  have hvr : w.wakeYielding.running = none := (congrArg Core.running hcore).trans hr
  have hended : w.wakeYielding.ended? L = w.ended? L := by rw [ended?_core, ended?_core, hcore]
  have hveil (n a : Nat) := veil_wakeYielding h.poised.yielding n a
  cases he with
  | home h1 => simp [hr] at h1
  | @along n a hs hh _ hl _ hway =>
    have hidle : (w.veil n a).running = none ∧ (w.veil n a).ready = [] := ⟨by simp [veil, hr, Option.filter], hq⟩
    cases hw : w.ended? L with
    | some how =>
      have hm := hal.mainReady (ha.turn (by simp [hr]) (by simp [hw]))
      have hb := World.begun L hL hvr
      obtain rfl : n = w.now := hs.clock.resolve_right fun h1 => by simp [hw] at h1
      refine .home (a := a) (hb.turn hm) ?_ (by rw [hb.ended, hended, hw]; rfl) ?_
      · exact lone_of_waiter (hb.awaits (hal.waiter ha.waiter) fun _ => hm).waiter
      · rw [veil_beginRound hvr, hveil, hb.now, hal.now]
        exact hway _ (.now ⟨hidle.1, hidle.2, by rw [ended?_veil w hL, hw]; rfl⟩)
    | none =>
      have hnot : ¬ (w.veil n a).Settled L := fun h1 => by
        have := h1.2.2
        rw [ended?_veil w hL, hw] at this
        simp at this
      by_cases hy : w.yielding = []
      · -- Nobody but the main task has a turn in this round.
        rw [wakeYielding_nil hy]
        exact begun hL hr hh ha.waiter hw (hs.clock.imp_right fun h1 => ⟨h1.1, h1.2.2.2⟩) hl hway
      · obtain rfl : n = w.now := hs.clock.resolve_right fun h1 => hy h1.2.2.2.2
        have hstep : (w.veil w.now a).step? su = some (w.veil w.now a).wakeYielding := by
          have h1 : (w.veil w.now a).yielding.isEmpty = false := by simpa [veil] using hy
          have h2 : (w.veil w.now a).wakeYielding.mainReady = false := by rw [← hveil]; rfl
          simp [step?, hidle, nextRound?, h1, h2]
        have hv : w.wakeYielding.Hidden := (unseen_wakeAll w.yielding (w := { w with yielding := [] })
          ⟨hh.main, hh.queue, hh.handles⟩ h.poised.yielding).hidden
        refine begun (k := w.now) (b := a) hL hvr hv (hal.waiter ha.waiter) (hended.trans hw) (.inl hal.now.symm) ?_ ?_
        · rw [hveil]
          exact hl.step hu hstep
        · rw [hveil]
          exact fun u hsu => hway u (.later hnot hstep hsu)

/-- The clock moves on, for the main task alone or for others as well. -/
theorem advanced {due : Nat} (h : AtWork (su.polling ms secs) p L t₀ below acts w d phase) (he : Escorts su L r w)
    (hu : su.Unread) (hr : w.running = none) (hq : w.ready = []) (hm : w.mainReady = false) (hy : w.yielding = [])
    (hdue : w.nextDue = some due) : Escorts su L r (w.advanceTo due).beginRound := by
  have hL := h.poised.load_ne
  have ha := h.awaits (by simp [hr])
  have hadv := World.advanced L w due
  have hcore := (later_advanceTo w due).core
  have hvr : (w.advanceTo due).running = none := (running_advanceTo w due).trans hr
  have hended : (w.advanceTo due).ended? L = w.ended? L := by rw [ended?_core, ended?_core, hcore]
  have hnone : w.ended? L = none := by
    by_contra hne
    have := ha.turn (by simp [hr]) (Option.ne_none_iff_isSome.1 hne)
    simp [hm] at this
  obtain ⟨hmem, hleast⟩ := List.min?_eq_some_iff.1 hdue
  cases he with
  | home h1 => simp [hr] at h1
  | @along n a hs hh _ hl _ hway =>
    have hle : n ≤ w.now := hs.clock.elim (fun h1 => h1.le) fun h1 => h1.1
    have hv : (w.advanceTo due).Hidden := ⟨by rw [← hadv.main]; exact hh.main,
      by rw [show (w.advanceTo due).lock = w.lock from congrArg Core.lock hcore]; exact hh.queue,
      by rw [show (w.advanceTo due).handles = w.handles from congrArg Core.handles hcore]; exact hh.handles⟩
    have hidle : (w.veil n a).running = none ∧ (w.veil n a).ready = [] := ⟨by simp [veil, hr, Option.filter], hq⟩
    have hnot : ¬ (w.veil n a).Settled L := fun h1 => by
      have := h1.2.2
      rw [ended?_veil w hL, hnone] at this
      simp at this
    by_cases hothers : ∃ tm ∈ w.timers, tm.2 ≠ 0 ∧ tm.1 ≤ due
    · obtain ⟨tm, htm, h0, h1⟩ := hothers
      have hnow := h.poised.timers tm htm
      obtain rfl : tm.1 = due := Nat.le_antisymm h1 (hleast _ (List.mem_append_left _ (List.mem_map.2 ⟨tm, htm, rfl⟩)))
      have hveil : (w.advanceTo tm.1).veil tm.1 a = (w.veil n a).advanceTo tm.1 := veil_advanceTo (by omega)
      have hnext : (w.veil n a).nextDue = some tm.1 := by
        refine List.min?_eq_some_iff.2 ⟨?_, fun x hx => hleast x ?_⟩
        · simpa [veil] using ⟨tm.2, by simpa using ⟨htm, h0⟩⟩
        · simp only [veil, Option.toList_none, List.append_nil, List.mem_map, List.mem_filter] at hx
          obtain ⟨tm', ⟨h2, -⟩, rfl⟩ := hx
          exact List.mem_append_left _ (List.mem_map.2 ⟨tm', h2, rfl⟩)
      have hstep : (w.veil n a).step? su = some ((w.veil n a).advanceTo tm.1) := by
        have h2 : ((w.veil n a).mainReady || !(w.veil n a).yielding.isEmpty) = false := by simp [veil, hy]
        have h3 : ((w.veil n a).advanceTo tm.1).mainReady = false := by rw [← hveil]; rfl
        simp [step?, hidle, nextRound?, h2, h3, hnext]
      refine begun (k := tm.1) (b := a) hL hvr hv (hadv.waiter ▸ ha.waiter) (hended.trans hnone)
        (.inl (by rw [hadv.now, max_eq_right hnow.le])) ?_ ?_
      · rw [hveil]
        exact hl.step hu hstep
      · rw [hveil]
        exact fun u hsu => hway u (.later hnot hstep hsu)
    · -- Nobody else notices that time has passed.
      have hsame := veil_advanceTo_alone n a hothers
      refine begun (k := n) (b := a) hL hvr hv (hadv.waiter ▸ ha.waiter) (hended.trans hnone)
        (.inr ⟨by rw [hadv.now]; omega, ?_, ?_⟩) (by rw [hsame]; exact hl) (by rw [hsame]; exact hway)
      · exact (congrArg World.ready hsame :).trans hq
      · exact (congrArg World.yielding hsame :).trans hy

/-- One step of the machine. -/
theorem step (h : AtWork (su.polling ms secs) p L t₀ below acts w d phase) (he : Escorts su L r w)
    (hu : su.Unread) (hp : 1 ≤ ms) (hin : w.ended? L = none → w.now < t₀ + secs * 1000)
    (hs : w.step? (su.polling ms secs) = some w')
    (hon : (w'.ended? L).isSome = true ∨ ∃ d' phase', w'.Drives d' phase' below) : Escorts su L r w' := by
  unfold step? at hs
  split at hs
  next t hr =>
    obtain rfl := Option.some.inj hs
    by_cases ht : t = 0
    · subst ht
      exact driver h he hp hr hin hon
    · exact other h he hu hr ht
  next hr =>
    split at hs
    next t ready hq =>
      obtain rfl := Option.some.inj hs
      exact handed h he hu hr hq
    next hq =>
      obtain ⟨v, hv, rfl⟩ := Option.map_eq_some_iff.1 hs
      split_ifs at hv with hy
      · obtain rfl := Option.some.inj hv
        exact yielded h he hu hr hq
      · obtain ⟨due, hdue, rfl⟩ := Option.map_eq_some_iff.1 hv
        simp only [Bool.or_eq_true, Bool.not_eq_true', not_or, Bool.not_eq_true, Bool.not_eq_false] at hy
        exact advanced h he hu hr hq hy.1 (List.isEmpty_iff.1 hy.2) hdue

end Escorts

end PageTest
