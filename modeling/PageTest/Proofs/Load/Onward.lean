import PageTest.Proofs.Load.Grammar
import PageTest.Proofs.Load.Weights

/-! Loads that were stopped on their way. From wherever it stands a load can come to its end by moves of
its own, so what it has written is the beginning of a block that it could have written. -/

namespace PageTest

/-- The harness with frames whose signals reach it. -/
def Setup.hearing (su : Setup) : Setup := { su with deaf := false }

/-- What others may do between two moves of a load: the time goes on and the page may be any other, but the
registry is left alone and the load keeps the lock. -/
structure Meanwhile (c : Code) (phase : LoadPhase) (v w : World) : Prop where
  registry : w.registry = v.registry
  now : v.now ≤ w.now
  grounded : Grounded c w.core phase

/-- A load that stands somewhere on its way goes on by its own moves until it returns, and has the story
that is told last. -/
inductive Onward (su : Setup) (c : Code) (p : String) :
    World → Story → LoadPhase → List Frame → Option Outcome → Story → Prop
  | on {v w : World} {t : Nat} {s s' : Story} {phase phase' : LoadPhase} {inner inner' rest : List Frame}
      {ret ret' : Option Outcome} {f : Frame} (es : List LogEntry) : Meanwhile c phase v w →
      inner ++ [.load p phase] = f :: rest →
      (f.act su w t ret).1.log.history = w.log.history ++ es →
      (f.act su w t ret).2.onto rest = (inner' ++ [.load p phase'], ret') →
      Onward su c p (f.act su w t ret).1 (s.observe phase inner ret w.registry.tests es) phase' inner' ret' s' →
      Onward su c p v s phase inner ret s'
  | back {v w : World} {t : Nat} {s : Story} {phase : LoadPhase} {inner rest : List Frame}
      {ret : Option Outcome} {f : Frame} (es : List LogEntry) : Meanwhile c phase v w →
      inner ++ [.load p phase] = f :: rest →
      (f.act su w t ret).1.log.history = w.log.history ++ es →
      (f.act su w t ret).2.onto rest = ([], some (.value .done)) →
      Onward su c p v s phase inner ret (s.observe phase inner ret w.registry.tests es)

namespace World

/-- The world after others have seen to it that a load need not wait. -/
def oblige (v : World) (k : Nat) (f : Frame) : World :=
  let w : World := { v with
    allowance := fullAllowance
    lock := { v.lock with holder := some k, tickets := max v.lock.tickets (k + 1) } }
  match f with
  | .pause due => { w with now := max w.now due }
  | .join t =>
    let tasks := w.tasks ++ List.replicate (t + 1) (Task.start [])
    { w with tasks := tasks.modify t fun task =>
        { task with stack := [], returned := none, ended := some .done } }
  | .waitLoad _ (some l) =>
    let listeners := w.scene.page.listeners ++ List.replicate (l + 1) (Listener.mk .frame "load" .fired)
    { w with scene := { w.scene with page := { w.scene.page with
        listeners := listeners.modify l fun x => { x with state := .fired } } } }
  | _ => w

variable {v : World} {k : Nat} {f : Frame}

theorem oblige_registry : (v.oblige k f).registry = v.registry := by
  unfold oblige; split <;> rfl

theorem oblige_lock :
    (v.oblige k f).lock = { v.lock with holder := some k, tickets := max v.lock.tickets (k + 1) } := by
  unfold oblige; split <;> rfl

theorem le_oblige_now : v.now ≤ (v.oblige k f).now := by
  unfold oblige
  split
  · exact Nat.le_max_left _ _
  all_goals exact le_rfl

/-- It is as obliging as it is meant to be. -/
theorem obliging_oblige (hf : ∀ p k', f = .load p (.queueing k') → k' = k) : (v.oblige k f).Obliging f := by
  cases f with
  | pause due => exact Nat.le_max_right _ _
  | sleep ms => simp [Obliging, oblige, fullAllowance]
  | join t =>
    refine ⟨by simp [oblige, fullAllowance], ?_⟩
    have ht : t < (v.tasks ++ List.replicate (t + 1) (Task.start [])).length := by simp; omega
    simp [oblige, ended?, task?, List.getElem?_eq_getElem ht]
  | waitLoad loaded l =>
    cases l with
    | none => trivial
    | some l =>
      have hl : l < (v.scene.page.listeners ++
          List.replicate (l + 1) (Listener.mk .frame "load" .fired)).length := by
        simp; omega
      simp [Obliging, oblige, Page.listenerState, List.getElem?_eq_getElem hl]
  | load p phase =>
    cases phase with
    | arriving => simp [Obliging, oblige, fullAllowance]
    | queueing k' =>
      obtain rfl := hf p k' rfl
      rfl
    | _ => trivial
  | _ => trivial

end World

/-- What the registry owes to a load on its way. -/
def Ready (c : Code) (g : Registry Test) : LoadPhase → Prop
  | .loading _ | .registering _ =>
    (∀ u ∈ g.tests, u.obeys c = true) ∧ (c.body.runs = false → g.state ≠ .running)
  | .running _ => ∀ u ∈ g.tests, u.obeys c = true
  | _ => True

theorem Grounded.ready {c : Code} {k : Core} {phase : LoadPhase} (h : Grounded c k phase) :
    Ready c k.registry phase := by
  cases phase with
  | loading t => exact h.2
  | registering t => exact h.2
  | running t => exact h.2
  | _ => trivial

theorem Ready.grounded {c : Code} {w : World} {k : Nat} {phase : LoadPhase} (h : Ready c w.registry phase)
    (hk : World.ticketOf phase = some k) (hl : w.lock.holder = some k) (ht : k < w.lock.tickets) :
    Grounded c w.core phase := by
  cases phase with
  | arriving => trivial
  | queueing t => obtain rfl := Option.some.inj hk; exact ht
  | entered t => obtain rfl := Option.some.inj hk; exact ⟨hl, ht⟩
  | loading t => obtain rfl := Option.some.inj hk; exact ⟨⟨hl, ht⟩, h⟩
  | registering t => obtain rfl := Option.some.inj hk; exact ⟨⟨hl, ht⟩, h⟩
  | running t => obtain rfl := Option.some.inj hk; exact ⟨⟨hl, ht⟩, h⟩

theorem Meanwhile.oblige {c : Code} {v : World} {k : Nat} {f : Frame} {phase : LoadPhase}
    (h : Ready c v.registry phase) (hk : World.ticketOf phase = some k) :
    Meanwhile c phase v (v.oblige k f) where
  registry := World.oblige_registry
  now := World.le_oblige_now
  grounded := by
    refine Ready.grounded (by rwa [World.oblige_registry]) hk ?_ ?_
    · rw [World.oblige_lock]
    · rw [World.oblige_lock]
      exact Nat.lt_of_lt_of_le (Nat.lt_succ_self k) (Nat.le_max_right _ _)

theorem Orderly.no_load {c : Code} {k : Nat} {stack : List Frame} {ret : Option Outcome}
    (h : Orderly c (.within k) stack ret) (hl : c.body.loads = false) :
    ∀ f ∈ stack, f.isLoad = false := by
  cases stack with
  | nil => simp
  | cons f rest =>
    intro g hg
    rcases List.mem_cons.1 hg with rfl | hg
    · cases g with
      | load p phase => exact absurd h.1.1 (by simp [Role.manners, hl])
      | _ => rfl
    · exact (h.2.2 g hg).2

theorem Doing.no_load {su : Setup} {c : Code} {p : String} {s : Story} {phase : LoadPhase}
    {inner : List Frame} {ret : Option Outcome} (h : Doing su c p s phase inner ret)
    (hl : c.body.loads = false) : ∀ f ∈ inner, f.isLoad = false := by
  cases h with
  | delayed _ _ hd => cases hd <;> simp [Frame.isLoad]
  | registering _ _ _ ho => exact ho.no_load hl
  | passing => simp [Frame.isLoad]
  | testing _ _ _ _ ho =>
    intro f hf
    rcases List.mem_append.1 hf with h1 | h1
    · exact ho.no_load hl f h1
    · obtain rfl := List.mem_singleton.1 h1
      rfl
  | _ => simp

variable {su : Setup} {c : Code} {p : String} {k : Nat} {s : Story} {phase : LoadPhase}
variable {inner : List Frame} {ret : Option Outcome}

/-- A load that the loader survives returns. -/
theorem Over.value {o : Outcome} (h : Over su c p s o) (hp : su.loader.panicOn ≠ some p) :
    o = .value .done := by
  cases h with
  | died hp' => exact absurd hp' hp
  | _ => rfl

namespace Doing

/-- What is on top of a load, or the load itself. -/
theorem homely (h : Doing su c p s phase inner ret) {f : Frame} {rest : List Frame}
    (hf : inner ++ [.load p phase] = f :: rest) : f.Homely c := by
  have load {phase : LoadPhase} (hf : [] ++ [.load p phase] = f :: rest) : f.Homely c := by
    obtain ⟨rfl, rfl⟩ := List.cons.inj hf
    trivial
  have body {k : Nat} {phase : LoadPhase} {inner more : List Frame} {ret : Option Outcome}
      (ho : Orderly c (.within k) inner ret) (hm : ∀ g ∈ more, g.Homely c)
      (hf : inner ++ (more ++ [.load p phase]) = f :: rest) : f.Homely c := by
    cases inner with
    | nil =>
      cases more with
      | nil => exact load hf
      | cons g more => obtain ⟨rfl, rfl⟩ := List.cons.inj hf; exact hm g (by simp)
    | cons g deep => obtain ⟨rfl, rfl⟩ := List.cons.inj hf; exact ho.1.homely
  cases h with
  | delayed k hs hd =>
    cases hd with
    | past => exact load hf
    | _ => obtain ⟨rfl, rfl⟩ := List.cons.inj hf; trivial
  | registering ho hr hn hb =>
    have hnone : ∀ g ∈ ([] : List Frame), g.Homely c := by simp
    exact body hb hnone hf
  | passing => obtain ⟨rfl, rfl⟩ := List.cons.inj hf; trivial
  | testing ho hl ht hq hb =>
    rw [List.append_assoc] at hf
    exact body hb (by simp [Frame.Homely]) hf
  | _ => exact load hf

/-- The script has come to nothing while it is still on the stack. -/
theorem unregistered (h : Doing su c p s phase inner ret) (hp : ∃ k, phase = .registering k)
    (hi : inner = []) (hr : ret.isSome) : s.registration = none := by
  cases h with
  | registering ho hr hn => exact hn
  | registered => simp at hr
  | _ => simp at hp

/-- Only the load itself can be waiting for its turn. -/
theorem turn (h : Doing su c p s phase inner ret) (hl : c.body.loads = false)
    (hk : World.ticketOf phase = some k) {f : Frame} {rest : List Frame}
    (hf : inner ++ [.load p phase] = f :: rest) {q : String} {k' : Nat} (hq : f = .load q (.queueing k')) :
    k' = k := by
  subst hq
  cases inner with
  | nil =>
    obtain ⟨h1, -⟩ := List.cons.inj hf
    obtain ⟨-, rfl⟩ := Frame.load.inj h1
    exact Option.some.inj hk
  | cons g deep =>
    obtain ⟨rfl, -⟩ := List.cons.inj hf
    exact absurd (h.no_load hl (.load q (.queueing k')) (by simp)) (by simp [Frame.isLoad])

/-- If bodies do not load themselves, a load comes to its end by its own moves. -/
theorem onward (hd : su.deaf = false) (hc : ∀ sc ∈ su.catalog, sc.obeys c = true)
    (hl : c.body.loads = false) (hp : su.loader.panicOn ≠ some p) {v : World}
    (h : Doing su c p s phase inner ret) (hk : World.ticketOf phase = some k)
    (hg : Ready c v.registry phase) :
    ∃ s', Onward su c p v s phase inner ret s' ∧ Over su c p s' (.value .done) ∧ s.Begins s' := by
  generalize hn : stackWeight su v.registry.tests (inner ++ [.load p phase]) ret = n
  induction n using Nat.strong_induction_on generalizing v s phase inner ret with
  | _ n ih =>
    obtain ⟨f, rest, hf⟩ : ∃ f rest, inner ++ [.load p phase] = f :: rest :=
      List.exists_cons_of_ne_nil (by simp)
    set w := v.oblige k f with hw
    have hmean : Meanwhile c phase v w := .oblige hg hk
    have hprogress := h.act 0 hc hmean.grounded hf
    have hobliging : w.Obliging f := World.obliging_oblige fun q k' hq => h.turn hl hk hf hq
    have hlighter : Frame.Lightens su w f ret (f.act su w 0 ret) :=
      Frame.lightens_act 0 ret hd (h.homely hf) hl fun _ => hobliging
    rcases hact : f.act su w 0 ret with ⟨u, m⟩
    rw [hact] at hprogress hlighter
    cases hprogress with
    | on es s' phase' inner' ret' hadv htells hm hd' hg' hkeeps =>
      have hk' : World.ticketOf phase' = some k := by
        cases hkeeps with
        | arrive => simp [World.ticketOf] at hk
        | keep hticket => exact hticket.trans hk
      have hlt : stackWeight su u.registry.tests (inner' ++ [.load p phase']) ret' < n := by
        have honto := stackWeight_onto su u.registry.tests m rest
        rw [hm] at honto
        rw [honto, ← hn, hf, ← hmean.registry]
        simp only [Frame.Lightens] at hlighter
        simp only [stackWeight, List.map_cons, List.sum_cons]
        omega
      obtain ⟨s'', honward, hover, hbegins'⟩ := ih _ hlt hd' hk' hg'.ready rfl
      have hbegins := Story.begins_observe (by rw [htells.story, htells.log]) fun k hk => h.unregistered ⟨k, hk⟩
      rw [htells.story] at hbegins
      have hhistory : (f.act su w 0 ret).1.log.history = w.log.history ++ es := by rw [hact]; exact hadv.history
      have honto : (f.act su w 0 ret).2.onto rest = (inner' ++ [.load p phase'], ret') := by rw [hact]; exact hm
      refine ⟨s'', .on es hmean hf hhistory honto ?_, hover, hbegins.trans hbegins'⟩
      rw [hact, htells.story]
      exact honward
    | @off _ k o es s' hadv htells hrest hticket hlock hover =>
      obtain rfl : o = .value .done := hover.value hp
      have hbegins := Story.begins_observe (by rw [htells.story, htells.log]) fun k hk => h.unregistered ⟨k, hk⟩
      rw [htells.story] at hbegins
      refine ⟨s', htells.story ▸ .back (t := 0) es hmean hf ?_ ?_, hover, hbegins⟩
      · rw [hact]
        exact hadv.history
      · rw [hact, hrest]
        rfl

/-- Where a load stands is the same in a harness that hears. -/
theorem hearing (h : Doing su c p s phase inner ret) : Doing su.hearing c p s phase inner ret := by
  have opened {k : Nat} {s : Story} (ho : s.Opened su c k p) : s.Opened su.hearing c k p := { ho with }
  cases h with
  | arriving => exact .arriving
  | queueing k => exact .queueing k
  | entered k => exact .entered k
  | delayed k hs hd => exact .delayed k hs hd
  | loading k hs => exact .loading k hs
  | registering ho hr hn hb hret => exact .registering (opened ho) hr hn hb hret
  | registered ho hr hl => exact .registered (opened ho) hr hl
  | passing ho hl hp hq => exact .passing (opened ho) hl hp hq
  | testing ho hl ht hq hb hret => exact .testing (opened ho) hl ht hq hb hret
  | passed ho hl hc => exact .passed (opened ho) hl hc
  | closing ho hl hc => exact .closing (opened ho) hl hc
  | refused ho hr hl hruns => exact .refused (opened ho) hr hl hruns

end Doing

/-- What a load of a harness that hears writes is a block of the harness as it is. -/
theorem Block.of_hearing (h : Block su.hearing p s) : Block su p s := by
  cases h with
  | rejected hs hlog => exact .rejected hs hlog
  | unknown hs hf hlog => exact .unknown hs hf hlog
  | unregistered hs hf hran ho he hlog => exact .unregistered hs hf hran ho he hlog
  | passed hs hf hl hc hlog => exact .passed hs hf hl hc hlog

end PageTest
