import PageTest.Proofs.Conditions.Plans
import PageTest.Proofs.Page.Walks

/-! Waiting for a condition. The caller looks at it again and again, and sleeps between two looks, until it has found
something else than that it does not hold, or has looked often enough. Others may do what they like to the
page meanwhile; they can neither hold up a look nor bring one forward. -/

namespace PageTest

open PageTest.Frame (Look lookAt pollReply timedOut)

variable {su : Setup} {w v : World} {m : Option Nat} {σ : List Signal} {t : Nat} {rest : List Frame}

/-! One move -/

namespace World

/-- The task is in the middle of some frames, and perhaps something is handed down to them. -/
def Amid (w : World) (t : Nat) (st : List Frame) (ret : Option Outcome) : Prop :=
  ∃ a, w.core.tasks[t]? = some a ∧ a.stack = st ∧ a.returned = ret ∧ a.ended = none

theorem plan_log_apply {x : Task} (hx : w.task? t = some x) (hc : x.cancelled = false) (rest : List Frame) (m : Move) :
    (w.apply t rest m).plan = w.plan ∧ (w.apply t rest m).log = w.log := by
  cases m with
  | halt f =>
    have hself := task?_modifyTask_self w (fun task => { task with stack := f :: rest, returned := none }) t
    have hkept : ((World.task? { w.modifyTask t fun task => { task with stack := f :: rest, returned := none } with
        running := none } t).map (·.cancelled)).getD false = false := by
      have h : ((World.task? (w.modifyTask t fun task => { task with stack := f :: rest, returned := none }) t).map
          (·.cancelled)).getD false = false := by simp [hself, hx, hc]
      exact h
    simp only [apply, hkept, Bool.false_eq_true, if_false]
    exact ⟨rfl, rfl⟩
  | _ => exact ⟨rfl, rfl⟩

/-- One move of a task that has not been asked to end. -/
theorem Amid.runTask {f : Frame} {ret : Option Outcome} {mv : Move} (h : w.Amid t (f :: rest) ret)
    (hs : (w.runTask su t).Spared t) (hact : f.act su w t ret = (v, mv)) :
    (w.runTask su t).Amid t (mv.onto rest).1 (mv.onto rest).2 ∧ (w.runTask su t).plan = v.plan ∧
      (w.runTask su t).log = v.log ∧ (mv.waits = false → (w.runTask su t).running = w.running) := by
  obtain ⟨a, ha, hst, rfl, he⟩ := h
  have hreach := f.apart_act su w t a.returned
  have hcore := core_runTask su ha hst
  rw [hact] at hreach hcore
  obtain ⟨b, hb, hu⟩ := hreach.tasks t a ha
  have hmoved : (w.runTask su t).core.tasks[t]? = some (b.moved rest mv) := by rw [hcore, Core.settle_self hb]
  have hkept : b.cancelled = false := by
    rw [← Activity.cancelled_moved b rest mv]
    exact hs.kept hmoved
  rw [Activity.moved_onto (by simp [hkept])] at hmoved
  have hrunning : mv.waits = false → (w.runTask su t).core.running = w.core.running := by
    intro hgoes
    rw [hcore, Core.settle_running, hgoes, hreach.running]
    rfl
  rw [getElem?_core] at hb ha
  obtain ⟨x, hx, rfl⟩ := Option.map_eq_some_iff.1 ha
  obtain ⟨y, hy, rfl⟩ := Option.map_eq_some_iff.1 hb
  have hrun : w.runTask su t = v.apply t rest mv := by
    have hact' : f.act su w t x.returned = (v, mv) := hact
    rw [runTask_frame su hx hst, hact']
  obtain ⟨hplan, hlog⟩ := plan_log_apply hy hkept rest mv
  exact ⟨⟨_, hmoved, rfl, rfl, hu.ended.trans he⟩, (congrArg plan hrun).trans hplan,
    (congrArg World.log hrun).trans hlog, hrunning⟩

theorem Amid.mover_eq {st : List Frame} {ret : Option Outcome} (hat : w.Amid t st ret) (hst : st ≠ [])
    (hn : Happens su w m σ v) (hr : w.running = some t) : m = some t := by
  obtain ⟨a, ha, rfl, -⟩ := hat
  exact hn.mover_of_running hr ha hst

/-- Somebody else gets on. -/
theorem Amid.other {st : List Frame} {ret : Option Outcome} (hat : w.Amid t st ret) (hst : st ≠ [])
    (hn : Happens su w m σ v) (hm : m ≠ some t) (hs : v.Spared t) (hp : w.now < v.now → w.ready = []) :
    v.Amid t st ret ∧ (w.Queued t → v.now = w.now ∧ v.Queued t) ∧ ∀ due, w.Booked t due → v.Booked t due := by
  obtain ⟨a, ha, rfl, rfl, he⟩ := hat
  obtain ⟨⟨b, hb, hu⟩, -⟩ := hn.apart hm ha hst he hs
  exact ⟨⟨b, hb, hu.stack, hu.returned, hu.ended.trans he⟩, hn.keeps hm ha hst he hs hp⟩

end World

/-! Looks -/

/-- One look at a condition. -/
structure Sighting where
  /-- How many looks came before it. -/
  nth : Nat
  time : Nat
  page : Page Action
  /-- How long the call goes to sleep after it, if it does. -/
  sleeps : Option Nat

def Sighting.finds (s : Sighting) (c : Condition) : Look := lookAt s.page s.nth c

/-- How many looks came before the one that the task is about to take. -/
def Activity.looks? : Activity → Option Nat
  | ⟨.poll _ _ wait polls :: _, none, _, _⟩ => if polls < wait.maxTries then some polls else none
  | _ => none

/-- How long the task is about to sleep. -/
def Activity.sleeps? : Activity → Option Nat
  | ⟨.sleep ms :: _, none, _, _⟩ => some ms
  | _ => none

/-- The look that a task takes in a deed. -/
def Deed.sighting? (t : Nat) (d : Deed) : Option Sighting :=
  if d.mover = some t then
    (d.before.core.tasks[t]?.bind Activity.looks?).map fun nth =>
      ⟨nth, d.before.now, d.before.scene.page, d.after.core.tasks[t]?.bind Activity.sleeps?⟩
  else none

/-- The looks that a task takes in some deeds. -/
def sightings (t : Nat) (ds : List Deed) : List Sighting := ds.filterMap (Deed.sighting? t)

/-! Calls -/

/-- A sleep takes the interval of a wait, rounded up to whole milliseconds. -/
theorem WaitOptions.le_pause {wait : WaitOptions} (h : wait.interval < clockEnd) :
    wait.interval ≤ wait.pause * 1000000 ∧ wait.pause * 1000000 < wait.interval + 1000000 := by
  rw [pause, if_pos h]
  omega

/-- An interval that the settings give is a number of whole milliseconds. -/
theorem WaitOptions.pause_ofDefaults {d : WaitDefaults} (h : d.intervalMs < 2 ^ 64) :
    (ofDefaults d).pause = d.intervalMs := by
  have hend : clockEnd = 9223372036854775808 * 1000000000 := rfl
  have hinterval : (ofDefaults d).interval = d.intervalMs * 1000000 := rfl
  have hshown : (ofDefaults d).interval < clockEnd := by omega
  have := le_pause hshown
  omega

/-- What a call appends and comes to, given what its looks found. -/
def pollEnd (c : Condition) (msg : String) (wait : WaitOptions) (finds : List Look) : List LogEntry × Outcome :=
  match finds.getLast? with
  | some (.holds true) => ([⟨.pass, msg⟩], .value (pollReply c finds.length))
  | some (.fault f) => ([], .fault f)
  | some (.panic p) => ([], .panic p)
  | some (.holds false) | none => ([⟨.fail, timedOut msg wait.maxTries⟩], .value (pollReply c finds.length))

/-- What a call has done from its start to its end: the looks it has taken, what it has appended, and what it has
come to. -/
structure Polled (c : Condition) (msg : String) (wait : WaitOptions) (start stop : Nat) (looks : List Sighting)
    (es : List LogEntry) (o : Outcome) : Prop where
  /-- All looks but the last find that the condition does not hold. -/
  before : ∀ i s, looks[i]? = some s → i + 1 < looks.length → s.finds c = .holds false
  tries : looks.length ≤ wait.maxTries
  /-- The last look finds something else, unless it is the last that may be taken. -/
  last : looks.length = wait.maxTries ∨ ∃ s, looks.getLast? = some s ∧ s.finds c ≠ .holds false
  /-- It sleeps after each look but the last, and for nothing else does time pass. -/
  timing : ∀ i s, looks[i]? = some s → s.nth = i ∧ s.time = start + i * wait.pause ∧
    s.sleeps = if i + 1 < looks.length then some wait.pause else none
  stop : stop = start + (looks.length - 1) * wait.pause
  verdict : (es, o) = pollEnd c msg wait (looks.map (·.finds c))

section

variable {c : Condition} {msg : String} {wait : WaitOptions} {start k : Nat}
variable {looks : List Sighting} {es : List LogEntry}

/-- How far a call has come that has looked so many times. -/
inductive PollStage (t : Nat) (c : Condition) (msg : String) (wait : WaitOptions) (rest : List Frame) (start k : Nat)
    (w : World) : Prop
  /-- About to look, unless it has looked often enough. -/
  | looking : k ≤ wait.maxTries → w.Amid t (.poll c msg wait k :: rest) none → w.running = some t →
      w.now = start + min k (wait.maxTries - 1) * wait.pause → PollStage t c msg wait rest start k w
  /-- About to set its timer. To sleep no time it may have to stand back. -/
  | dozing : k < wait.maxTries → w.Amid t (.sleep wait.pause :: .poll c msg wait k :: rest) none →
      w.Queued t → (wait.pause = 0 ∨ w.running = some t) →
      w.now + wait.pause = start + k * wait.pause → PollStage t c msg wait rest start k w
  | sleeping : k < wait.maxTries →
      w.Amid t (.pause (start + k * wait.pause) :: .poll c msg wait k :: rest) none →
      w.Booked t (start + k * wait.pause) → PollStage t c msg wait rest start k w
  | waking : k < wait.maxTries → w.Amid t (.poll c msg wait k :: rest) (some (.value .done)) →
      w.running = some t → w.now = start + k * wait.pause → PollStage t c msg wait rest start k w

/-- A call in progress: the looks it has taken, and what it has appended. -/
structure Polling (t : Nat) (c : Condition) (msg : String) (wait : WaitOptions) (rest : List Frame) (start : Nat)
    (looks : List Sighting) (es : List LogEntry) (w : World) : Prop where
  stage : PollStage t c msg wait rest start looks.length w
  seen : ∀ i s, looks[i]? = some s → s.nth = i ∧ s.time = start + i * wait.pause ∧
    s.finds c = .holds false ∧ s.sleeps = if i + 1 < wait.maxTries then some wait.pause else none
  silent : es = []

/-- The call is on the stack. -/
def World.Polls (w : World) (t : Nat) (c : Condition) (msg : String) (wait : WaitOptions) (rest : List Frame) : Prop :=
  ∃ above k ret, w.Amid t (above ++ .poll c msg wait k :: rest) ret

theorem PollStage.polls (h : PollStage t c msg wait rest start k w) : w.Polls t c msg wait rest := by
  cases h with
  | looking _ hat => exact ⟨[], k, _, hat⟩
  | dozing _ hat => exact ⟨[_], k, _, hat⟩
  | sleeping _ hat => exact ⟨[_], k, _, hat⟩
  | waking _ hat => exact ⟨[], k, _, hat⟩

theorem World.Polls.not_back {o : Outcome} (h : w.Polls t c msg wait rest) : ¬ w.Back t rest o := by
  rintro ⟨a, ha, hs, -⟩
  obtain ⟨above, k, ret, b, hb, hs', -⟩ := h
  obtain rfl := Option.some.inj (ha.symm.trans hb)
  rw [hs] at hs'
  exact absurd (congrArg List.length hs') (by simp; omega)

/-- Until it has returned, a call is early enough, and something is yet to happen. -/
theorem PollStage.going (h : PollStage t c msg wait rest start k w) :
    w.now ≤ start + (wait.maxTries - 1) * wait.pause ∧ w.step? su ≠ none := by
  have late {n : Nat} (hn : n ≤ wait.maxTries - 1) :
      start + n * wait.pause ≤ start + (wait.maxTries - 1) * wait.pause :=
    Nat.add_le_add_left (Nat.mul_le_mul_right _ hn) _
  have moves (hr : w.running = some t) : w.step? su ≠ none := by simp [World.step?, hr]
  cases h with
  | looking hk _ hr hnow => exact ⟨hnow ▸ late (min_le_right _ _), moves hr⟩
  | dozing hk _ hq _ hnow =>
    have := late (n := k) (by omega)
    exact ⟨by omega, hq.step?_ne_none⟩
  | sleeping hk _ hb => exact ⟨hb.1.trans (late (by omega)), hb.step?_ne_none⟩
  | waking hk _ hr hnow => exact ⟨hnow ▸ late (by omega), moves hr⟩

/-- Somebody else gets on. -/
theorem PollStage.other (h : PollStage t c msg wait rest start k w) (hn : Happens su w m σ v) (hm : m ≠ some t)
    (hs : v.Spared t) (hp : w.now < v.now → w.ready = []) : PollStage t c msg wait rest start k v := by
  cases h with
  | looking _ hat hr => exact absurd (hat.mover_eq (by simp) hn hr) hm
  | waking _ hat hr => exact absurd (hat.mover_eq (by simp) hn hr) hm
  | dozing hk hat hq hi hnow =>
    have hzero : wait.pause = 0 := hi.resolve_right fun hr =>
      hm (hat.mover_eq (by simp) hn hr)
    obtain ⟨hat', hqueued, -⟩ := hat.other (by simp) hn hm hs hp
    obtain ⟨hsame, hq'⟩ := hqueued hq
    exact .dozing hk hat' hq' (.inl hzero) (hsame ▸ hnow)
  | sleeping hk hat hbooked =>
    obtain ⟨hat', -, hkept⟩ := hat.other (by simp) hn hm hs hp
    exact .sleeping hk hat' (hkept _ hbooked)

/-! Moves of the caller -/

theorem saidIn_own (hlog : v.log = w.log) : saidIn t [⟨⟨some t, w, v⟩, σ⟩] = [] := by
  simp [saidIn, said, Act.entries, hlog]

theorem saidIn_append_own {kind : LogKind} {text : String} (hlog : v.log = (w.append kind text).log) :
    saidIn t [⟨⟨some t, w, v⟩, σ⟩] = [⟨kind, text⟩] := by
  simp [saidIn, said, Act.entries, hlog, World.append]

/-- A sleep begins: it ends at once or later, or the task has to stand back before that. -/
theorem runTask_dozing (hk : k < wait.maxTries)
    (hat : w.Amid t (.sleep wait.pause :: .poll c msg wait k :: rest) none) (hr : w.running = some t)
    (hnow : w.now + wait.pause = start + k * wait.pause) (hs : (w.runTask su t).Spared t) :
    PollStage t c msg wait rest start k (w.runTask su t) ∧ (w.runTask su t).log = w.log := by
  by_cases hzero : wait.pause = 0
  · by_cases hallowance : w.allowance = 0
    · have hact : (Frame.sleep wait.pause).act su w t none =
          (w.standBack t, .halt (.sleep wait.pause)) := by
        simp [Frame.act, Frame.run, Frame.runSleep, hzero, hallowance]
      obtain ⟨hat', hplan, hlog, -⟩ := hat.runTask hs hact
      have hback : (w.runTask su t).yielding = t :: w.yielding := congrArg Plan.yielding hplan
      have hsame : (w.runTask su t).now = w.now := congrArg Plan.now hplan
      exact ⟨.dozing hk hat' (.inl (by simp [hback])) (.inl hzero) (hsame ▸ hnow), hlog⟩
    · have hact : (Frame.sleep wait.pause).act su w t none = (w.spend, .leave (.value .done)) := by
        simp [Frame.act, Frame.run, Frame.runSleep, hzero, hallowance]
      obtain ⟨hat', hplan, hlog, hrun⟩ := hat.runTask hs hact
      have hsame : (w.runTask su t).now = w.now := congrArg Plan.now hplan
      exact ⟨.waking hk hat' ((hrun rfl).trans hr) (by omega), hlog⟩
  · have hact : (Frame.sleep wait.pause).act su w t none =
        (w.setTimer t (w.now + wait.pause), .halt (.pause (w.now + wait.pause))) := by
      simp [Frame.act, Frame.run, Frame.runSleep, hzero]
    obtain ⟨hat', hplan, hlog, -⟩ := hat.runTask hs hact
    have htimers : (w.runTask su t).timers = w.timers.filter (·.2 ≠ t) ++ [(w.now + wait.pause, t)] :=
      congrArg Plan.timers hplan
    have hsame : (w.runTask su t).now = w.now := congrArg Plan.now hplan
    rw [hnow] at hat' htimers
    exact ⟨.sleeping hk hat' ⟨by omega, .inl (by simp [htimers])⟩, hlog⟩

/-- A task that is woken too early goes on sleeping. -/
theorem runTask_sleeping (hk : k < wait.maxTries)
    (hat : w.Amid t (.pause (start + k * wait.pause) :: .poll c msg wait k :: rest) none)
    (hr : w.running = some t) (hbooked : w.Booked t (start + k * wait.pause)) (hs : (w.runTask su t).Spared t) :
    PollStage t c msg wait rest start k (w.runTask su t) ∧ (w.runTask su t).log = w.log := by
  obtain ⟨hle, hplanned⟩ := hbooked
  by_cases hdue : start + k * wait.pause ≤ w.now
  · have hact : (Frame.pause (start + k * wait.pause)).act su w t none = (w.spend, .leave (.value .done)) := by
      simp [Frame.act, Frame.run, Frame.runPause, hdue]
    obtain ⟨hat', hplan, hlog, hrun⟩ := hat.runTask hs hact
    have hsame : (w.runTask su t).now = w.now := congrArg Plan.now hplan
    exact ⟨.waking hk hat' ((hrun rfl).trans hr) (by omega), hlog⟩
  · have hact : (Frame.pause (start + k * wait.pause)).act su w t none =
        (w, .halt (.pause (start + k * wait.pause))) := by
      simp [Frame.act, Frame.run, Frame.runPause, hdue]
    obtain ⟨hat', hplan, hlog, -⟩ := hat.runTask hs hact
    have hsame : (w.runTask su t).now = w.now := congrArg Plan.now hplan
    have htimers : (w.runTask su t).timers = w.timers := congrArg Plan.timers hplan
    have htimer := hplanned.resolve_right fun hnow => hdue hnow.1.le
    exact ⟨.sleeping hk hat' ⟨by omega, .inl (htimers ▸ htimer)⟩, hlog⟩

theorem runTask_waking (hk : k < wait.maxTries) (hat : w.Amid t (.poll c msg wait k :: rest) (some (.value .done)))
    (hr : w.running = some t) (hnow : w.now = start + k * wait.pause) (hs : (w.runTask su t).Spared t) :
    PollStage t c msg wait rest start k (w.runTask su t) ∧ (w.runTask su t).log = w.log := by
  obtain ⟨hat', hplan, hlog, hrun⟩ := hat.runTask hs rfl
  have hsame : (w.runTask su t).now = w.now := congrArg Plan.now hplan
  have hmin : min k (wait.maxTries - 1) = k := by omega
  exact ⟨.looking hk.le hat' ((hrun rfl).trans hr) (by rw [hsame, hmin, hnow]), hlog⟩

theorem World.Amid.bind {β : Type} {st : List Frame} {ret : Option Outcome} (h : w.Amid t st ret)
    (g : Activity → Option β) : ∃ b, w.core.tasks[t]?.bind g = g ⟨st, ret, none, b⟩ := by
  obtain ⟨⟨st', ret', e, b⟩, ha, hst, hret, he⟩ := h
  obtain rfl : st' = st := hst
  obtain rfl : ret' = ret := hret
  obtain rfl : e = none := he
  exact ⟨b, by rw [ha, Option.bind_some]⟩

/-- A look that finds that the condition does not hold. -/
theorem runTask_looking (hk : k < wait.maxTries) (hat : w.Amid t (.poll c msg wait k :: rest) none)
    (hr : w.running = some t) (hnow : w.now = start + k * wait.pause)
    (hfalse : lookAt w.scene.page k c = .holds false) (hs : (w.runTask su t).Spared t) :
    PollStage t c msg wait rest start (k + 1) (w.runTask su t) ∧ (w.runTask su t).log = w.log ∧
      (w.runTask su t).core.tasks[t]?.bind Activity.sleeps? =
        if k + 1 < wait.maxTries then some wait.pause else none := by
  by_cases hmore : k + 1 < wait.maxTries
  · have hact : (Frame.poll c msg wait k).act su w t none =
        (w, .call (.poll c msg wait (k + 1)) (.sleep wait.pause)) := by
      simp [Frame.act, Frame.run, Frame.runPoll, Nat.not_le.2 hk, hfalse, hmore]
    obtain ⟨hat', hplan, hlog, hrun⟩ := hat.runTask hs hact
    have hsame : (w.runTask su t).now = w.now := congrArg Plan.now hplan
    have hturn : (w.runTask su t).running = some t := (hrun rfl).trans hr
    obtain ⟨b, hsleeps⟩ := hat'.bind Activity.sleeps?
    refine ⟨.dozing hmore hat' (.inr (.inl hturn)) (.inr hturn) ?_, hlog, ?_⟩
    · rw [hsame, hnow, Nat.add_mul, Nat.one_mul, Nat.add_assoc]
    · rw [hsleeps, if_pos hmore]
      rfl
  · have hact : (Frame.poll c msg wait k).act su w t none = (w, .goOn (.poll c msg wait (k + 1))) := by
      simp [Frame.act, Frame.run, Frame.runPoll, Nat.not_le.2 hk, hfalse, hmore]
    obtain ⟨hat', hplan, hlog, hrun⟩ := hat.runTask hs hact
    have hsame : (w.runTask su t).now = w.now := congrArg Plan.now hplan
    have hmin : min (k + 1) (wait.maxTries - 1) = k := by omega
    obtain ⟨b, hsleeps⟩ := hat'.bind Activity.sleeps?
    refine ⟨.looking hk hat' ((hrun rfl).trans hr) (by rw [hsame, hmin, hnow]), hlog, ?_⟩
    rw [hsleeps, if_neg hmore]
    rfl

/-- A look that finds something else ends the call. -/
theorem runTask_found (hk : k < wait.maxTries) (hat : w.Amid t (.poll c msg wait k :: rest) none)
    (hfound : lookAt w.scene.page k c ≠ .holds false) (hs : (w.runTask su t).Spared t) :
    ∃ o, (w.runTask su t).Amid t rest (some o) ∧ (w.runTask su t).now = w.now ∧
      ∀ finds : List Look, finds.length = k →
        (saidIn t [⟨⟨some t, w, w.runTask su t⟩, σ⟩], o) = pollEnd c msg wait (finds ++ [lookAt w.scene.page k c]) := by
  have silent {o : Outcome} (hact : (Frame.poll c msg wait k).act su w t none = (w, .leave o))
      (hend : ∀ finds, pollEnd c msg wait (finds ++ [lookAt w.scene.page k c]) = ([], o)) :
      ∃ o, (w.runTask su t).Amid t rest (some o) ∧ (w.runTask su t).now = w.now ∧
        ∀ finds : List Look, finds.length = k → (saidIn t [⟨⟨some t, w, w.runTask su t⟩, σ⟩], o) =
          pollEnd c msg wait (finds ++ [lookAt w.scene.page k c]) := by
    obtain ⟨hat', hplan, hlog, -⟩ := hat.runTask hs hact
    refine ⟨o, hat', congrArg Plan.now hplan, fun finds _ => ?_⟩
    rw [saidIn_own hlog, hend]
  cases hl : lookAt w.scene.page k c with
  | holds b =>
    obtain rfl : b = true := by simpa [hl] using hfound
    have hact : (Frame.poll c msg wait k).act su w t none =
        (w.append .pass msg, .leave (.value (pollReply c (k + 1)))) := by
      simp [Frame.act, Frame.run, Frame.runPoll, Nat.not_le.2 hk, hl]
    obtain ⟨hat', hplan, hlog, -⟩ := hat.runTask hs hact
    refine ⟨_, hat', congrArg Plan.now hplan, fun finds hlen => ?_⟩
    rw [saidIn_append_own hlog]
    simp [pollEnd, hlen]
  | fault f =>
    rw [← hl]
    exact silent (o := .fault f) (by simp [Frame.act, Frame.run, Frame.runPoll, Nat.not_le.2 hk, hl])
      fun _ => by simp [pollEnd, hl]
  | panic p =>
    rw [← hl]
    exact silent (o := .panic p) (by simp [Frame.act, Frame.run, Frame.runPoll, Nat.not_le.2 hk, hl])
      fun _ => by simp [pollEnd, hl]

/-- A call that has looked often enough gives up. -/
theorem runTask_exhausted (hat : w.Amid t (.poll c msg wait wait.maxTries :: rest) none)
    (hs : (w.runTask su t).Spared t) :
    (w.runTask su t).Amid t rest (some (.value (pollReply c wait.maxTries))) ∧ (w.runTask su t).now = w.now ∧
      saidIn t [⟨⟨some t, w, w.runTask su t⟩, σ⟩] = [⟨.fail, timedOut msg wait.maxTries⟩] := by
  have hact : (Frame.poll c msg wait wait.maxTries).act su w t none =
      (w.append .fail (timedOut msg wait.maxTries), .leave (.value (pollReply c wait.maxTries))) := by
    simp [Frame.act, Frame.run, Frame.runPoll]
  obtain ⟨hat', hplan, hlog, -⟩ := hat.runTask hs hact
  exact ⟨hat', congrArg Plan.now hplan, saidIn_append_own hlog⟩

/-! The looks of a call -/

theorem getElem?_concat_cases {α : Type} {xs : List α} {x y : α} {i : Nat} (h : (xs ++ [x])[i]? = some y) :
    (i < xs.length ∧ xs[i]? = some y) ∨ (i = xs.length ∧ y = x) := by
  rcases Nat.lt_or_ge i xs.length with hi | hi
  · rw [List.getElem?_append_left hi] at h
    exact .inl ⟨hi, h⟩
  · rw [List.getElem?_append_right hi, List.getElem?_singleton] at h
    split_ifs at h with hzero
    exact .inr ⟨by omega, (Option.some.inj h).symm⟩

/-- A look that finds that the condition does not hold is added. -/
theorem Polling.look {s : Sighting} (h : Polling t c msg wait rest start looks es w)
    (hstage : PollStage t c msg wait rest start (looks.length + 1) v)
    (hs : s.nth = looks.length ∧ s.time = start + looks.length * wait.pause ∧ s.finds c = .holds false ∧
      s.sleeps = if looks.length + 1 < wait.maxTries then some wait.pause else none) :
    Polling t c msg wait rest start (looks ++ [s]) es v where
  stage := by simpa using hstage
  seen i s' hs' := by
    rcases getElem?_concat_cases hs' with ⟨-, hold⟩ | ⟨rfl, rfl⟩
    · exact h.seen i s' hold
    · exact hs
  silent := h.silent

/-- The last look finds something else. -/
theorem Polling.found {s : Sighting} {stop : Nat} {o : Outcome} (h : Polling t c msg wait rest start looks es w)
    (hk : looks.length < wait.maxTries) (hnth : s.nth = looks.length)
    (htime : s.time = start + looks.length * wait.pause) (hfound : s.finds c ≠ .holds false)
    (hsleeps : s.sleeps = none) (hstop : stop = s.time) {said : List LogEntry}
    (hend : (said, o) = pollEnd c msg wait (looks.map (·.finds c) ++ [s.finds c])) :
    Polled c msg wait start stop (looks ++ [s]) (es ++ said) o where
  before i s' hs' hi := by
    rcases getElem?_concat_cases hs' with ⟨-, hold⟩ | ⟨rfl, rfl⟩
    · exact (h.seen i s' hold).2.2.1
    · simp at hi
  tries := by simpa using hk
  last := .inr ⟨s, by simp, hfound⟩
  timing i s' hs' := by
    rcases getElem?_concat_cases hs' with ⟨hi, hold⟩ | ⟨rfl, rfl⟩
    · obtain ⟨hnth', htime', -, hsleeps'⟩ := h.seen i s' hold
      refine ⟨hnth', htime', ?_⟩
      rw [hsleeps', if_pos (by omega), if_pos (by simpa using hi)]
    · exact ⟨hnth, htime, by simpa using hsleeps⟩
  stop := by simpa [hstop] using htime
  verdict := by simpa [h.silent] using hend

/-- No look has found anything else. -/
theorem Polling.exhausted (h : Polling t c msg wait rest start looks es w) (hk : looks.length = wait.maxTries) :
    Polled c msg wait start (start + (wait.maxTries - 1) * wait.pause) looks
      (es ++ [⟨.fail, timedOut msg wait.maxTries⟩]) (.value (pollReply c wait.maxTries)) where
  before i s hs _ := (h.seen i s hs).2.2.1
  tries := hk.le
  last := .inl hk
  timing i s hs := by
    obtain ⟨hnth, htime, -, hsleeps⟩ := h.seen i s hs
    exact ⟨hnth, htime, hk ▸ hsleeps⟩
  stop := by rw [hk]
  verdict := by
    have hlast : (looks.map (·.finds c)).getLast? = none ∨ (looks.map (·.finds c)).getLast? = some (.holds false) := by
      rcases List.eq_nil_or_concat looks with rfl | ⟨older, s, rfl⟩
      · exact .inl rfl
      · have hs := (h.seen older.length s (by simp)).2.2.1
        exact .inr (by simp [hs])
    rcases hlast with hlast | hlast <;> simp [pollEnd, hlast, h.silent, hk]

/-! One thing that happens, and a whole run -/

theorem sightings_append (t : Nat) (ds ds' : List Deed) : sightings t (ds ++ ds') = sightings t ds ++ sightings t ds' :=
  List.filterMap_append

/-- A task takes the look that its stack tells it to take. -/
theorem sightings_own {st : List Frame} {ret : Option Outcome} (nth : Option Nat) (hat : w.Amid t st ret)
    (hl : ∀ b, Activity.looks? ⟨st, ret, none, b⟩ = nth) :
    sightings t [⟨⟨some t, w, v⟩, σ⟩] = (nth.map fun n => (⟨n, w.now, w.scene.page,
      v.core.tasks[t]?.bind Activity.sleeps?⟩ : Sighting)).toList := by
  obtain ⟨b, hlooks⟩ := hat.bind Activity.looks?
  rw [hl] at hlooks
  cases nth <;> simp [sightings, Deed.sighting?, hlooks]

theorem Polling.own (h : Polling t c msg wait rest start looks es w) (hr : w.running = some t)
    (hs : (w.runTask su t).Spared t) :
    let d : Deed := ⟨⟨some t, w, w.runTask su t⟩, σ⟩
    Polling t c msg wait rest start (looks ++ sightings t [d]) (es ++ saidIn t [d]) (w.runTask su t) ∨
      ∃ o, (w.runTask su t).Back t rest o ∧
        Polled c msg wait start (w.runTask su t).now (looks ++ sightings t [d]) (es ++ saidIn t [d]) o := by
  intro d
  have keep (hstage : PollStage t c msg wait rest start looks.length (w.runTask su t))
      (hlog : (w.runTask su t).log = w.log) (hnone : sightings t [d] = []) :
      Polling t c msg wait rest start (looks ++ sightings t [d]) (es ++ saidIn t [d]) (w.runTask su t) := by
    rw [hnone, saidIn_own hlog, List.append_nil, List.append_nil]
    exact ⟨hstage, h.seen, h.silent⟩
  cases h.stage with
  | dozing hk hat _ _ hnow =>
    obtain ⟨hstage, hlog⟩ := runTask_dozing hk hat hr hnow hs
    exact .inl (keep hstage hlog (sightings_own none hat fun _ => rfl))
  | sleeping hk hat hbooked =>
    obtain ⟨hstage, hlog⟩ := runTask_sleeping hk hat hr hbooked hs
    exact .inl (keep hstage hlog (sightings_own none hat fun _ => rfl))
  | waking hk hat _ hnow =>
    obtain ⟨hstage, hlog⟩ := runTask_waking hk hat hr hnow hs
    exact .inl (keep hstage hlog (sightings_own none hat fun _ => rfl))
  | looking hk hat _ hnow =>
    rcases hk.lt_or_eq with hlt | heq
    · have hmin : min looks.length (wait.maxTries - 1) = looks.length := by omega
      rw [hmin] at hnow
      have hone : sightings t [d] = [⟨looks.length, w.now, w.scene.page,
          (w.runTask su t).core.tasks[t]?.bind Activity.sleeps?⟩] :=
        sightings_own (some looks.length) hat fun _ => if_pos hlt
      rw [hone]
      by_cases hfalse : lookAt w.scene.page looks.length c = .holds false
      · obtain ⟨hstage, hlog, hsleeps⟩ := runTask_looking hlt hat hr hnow hfalse hs
        rw [saidIn_own hlog, List.append_nil]
        exact .inl (h.look hstage ⟨rfl, hnow, hfalse, hsleeps⟩)
      · obtain ⟨o, hat', hsame, hend⟩ := runTask_found (σ := σ) hlt hat hfalse hs
        obtain ⟨b', hsleeps⟩ := hat'.bind Activity.sleeps?
        have hnone : (w.runTask su t).core.tasks[t]?.bind Activity.sleeps? = none := by
          rw [hsleeps]
          cases rest with
          | nil => rfl
          | cons f below => cases f <;> rfl
        obtain ⟨a, ha, hst, hret, -⟩ := hat'
        have hpolled := h.found (s := ⟨looks.length, w.now, w.scene.page, _⟩) hlt rfl hnow hfalse hnone hsame
          (hend _ (by simp))
        exact .inr ⟨o, ⟨a, ha, hst, hret⟩, hpolled⟩
    · rw [heq] at hat hnow
      obtain ⟨hat', hsame, hsaid⟩ := runTask_exhausted (σ := σ) hat hs
      have hnone : sightings t [d] = [] := sightings_own none hat fun _ => if_neg (Nat.lt_irrefl _)
      have hmin : min wait.maxTries (wait.maxTries - 1) = wait.maxTries - 1 := by omega
      rw [hnone, hsaid, List.append_nil, hsame, hnow, hmin]
      obtain ⟨a, ha, hst, hret, -⟩ := hat'
      exact .inr ⟨_, ⟨a, ha, hst, hret⟩, h.exhausted heq⟩

/-- The call returns. -/
def PollReturns (t : Nat) (c : Condition) (msg : String) (wait : WaitOptions) (rest : List Frame) (o : Outcome)
    (d : Deed) : Prop :=
  d.before.Polls t c msg wait rest ∧ d.after.Back t rest o

theorem Polling.step (h : Polling t c msg wait rest start looks es w) (hn : Happens su w m σ v) (hs : v.Spared t)
    (hp : w.now < v.now → w.ready = []) :
    let d : Deed := ⟨⟨m, w, v⟩, σ⟩
    Polling t c msg wait rest start (looks ++ sightings t [d]) (es ++ saidIn t [d]) v ∨
      ∃ o, v.Back t rest o ∧
        Polled c msg wait start v.now (looks ++ sightings t [d]) (es ++ saidIn t [d]) o := by
  intro d
  by_cases hm : m = some t
  · subst hm
    cases hn with
    | move hr => exact h.own hr hs
    | step s hr hvacant =>
      -- the session takes no step while a call of its own is in progress
      obtain ⟨above, k, ret, a, ha, hst, -⟩ := h.stage.polls
      rw [World.getElem?_core] at ha
      obtain ⟨x, hx, rfl⟩ := Option.map_eq_some_iff.1 ha
      have hst' : x.stack = above ++ .poll c msg wait k :: rest := hst
      simp [hvacant x hx] at hst'
  · have hnone : sightings t [d] = [] := by simp [sightings, Deed.sighting?, d, hm]
    have hsaid : saidIn t [d] = [] := by simp [saidIn, said, d, hm]
    rw [hnone, hsaid, List.append_nil, List.append_nil]
    exact .inl ⟨h.stage.other hn hm hs hp, h.seen, h.silent⟩

/-- A call is in progress until it returns. -/
theorem Course.polling {w₀ : World} {ds : List Deed} (h₀ : Polling t c msg wait rest start [] [] w₀)
    (h : Course su w₀ ds w) (hs : ∀ d ∈ ds, d.before.Polls t c msg wait rest → d.after.Spared t)
    (hp : ∀ d ∈ ds, d.Punctual) :
    (Polling t c msg wait rest start (sightings t ds) (saidIn t ds) w ∧
      ∀ d ∈ ds, ∀ o, ¬ PollReturns t c msg wait rest o d) ∨
    ∃ ds₁ d ds₂ o, ds = ds₁ ++ d :: ds₂ ∧ (∀ d' ∈ ds₁, ∀ o', ¬ PollReturns t c msg wait rest o' d') ∧
      PollReturns t c msg wait rest o d ∧
      Polled c msg wait start d.after.now (sightings t (ds₁ ++ [d])) (saidIn t (ds₁ ++ [d])) o := by
  induction h with
  | start => exact .inl ⟨h₀, by simp⟩
  | @step ds w v m σ hds hn ih =>
    rcases ih (fun d hd => hs d (by simp [hd])) (fun d hd => hp d (by simp [hd])) with
      ⟨hpolling, hnot⟩ | ⟨ds₁, d, ds₂, o, rfl, hnot, hreturns, hpolled⟩
    · have hspared := hs ⟨⟨m, w, v⟩, σ⟩ (by simp) hpolling.stage.polls
      have hpunctual := hp ⟨⟨m, w, v⟩, σ⟩ (by simp)
      have hstep := hpolling.step hn hspared hpunctual
      simp only [← sightings_append, ← saidIn_append] at hstep
      rcases hstep with hv | ⟨o, hback, hpolled⟩
      · refine .inl ⟨hv, fun d hd o hreturns => ?_⟩
        rcases List.mem_append.1 hd with hd | hd
        · exact hnot d hd o hreturns
        · obtain rfl := List.mem_singleton.1 hd
          exact hv.stage.polls.not_back hreturns.2
      · exact .inr ⟨ds, _, [], o, rfl, hnot, ⟨hpolling.stage.polls, hback⟩, hpolled⟩
    · exact .inr ⟨ds₁, d, ds₂ ++ [⟨⟨m, w, v⟩, σ⟩], o, by simp, hnot, hreturns, hpolled⟩

/-! Conditions on elements -/

/-- An element is shown if it is attached and its display is anything but `none`; there is no telling for one that is
not attached. -/
theorem Sighting.finds_shown (s : Sighting) (h : Nat) :
    (s.finds (.shown h) = .holds true ↔
      ∃ e, s.page.elements[h]? = some e ∧ e.attached = true ∧ e.display ≠ "none") ∧
    (s.finds (.shown h) = .fault (.page (.detached h)) ↔ ¬ s.page.Attached h) := by
  unfold Sighting.finds Page.Attached Frame.lookAt Page.display Page.get Page.get?
  cases he : s.page.elements[h]? with
  | none => simp [he, Look.ofPage, Except.map]
  | some e => cases hatt : e.attached <;> simp [he, hatt, Option.filter, Look.ofPage, Except.map]

/-- A step that waits puts a call on the stack that has not looked yet. An element is looked up once, before that. -/
theorem begin_wait (su : Setup) (u : World) (found : List Nat) (msg : String) (options : Option WaitOptions) :
    (∀ p, u.begin su found (.waitCond msg p options) =
      (u, .within (.poll (.predicate p) msg (options.getD (.ofDefaults su.driver.harness.wait)) 0))) ∧
    ∀ e h, u.place found e = .ok h → u.begin su found (.waitShown e msg options) =
      (u, .within (.poll (.shown h) msg (options.getD (.ofDefaults su.driver.harness.wait)) 0)) := by
  refine ⟨fun p => rfl, fun e h he => ?_⟩
  simp only [World.begin, he]

/-- In whatever order tasks have their turns, and whatever they do to the page: as long as the clock moves on only when
nobody is ready, a call either has returned, with exactly the looks, the sleeps, the entries and the outcome that
`Polled` tells, or is not late and has something to wait for. A sleep takes the interval rounded up to whole
milliseconds, as long as a clock can show it, and an interval of the settings is whole already. To wait for an
element to be shown is to wait for a condition that holds while the element is attached and displayed, and that
nobody can tell once it is detached. -/
theorem wait_for_condition {ds : List Deed} (hturn : w.running = some t) (hcall : w.At t (.poll c msg wait 0 :: rest))
    (hrun : Course su w ds v) (hspared : ∀ d ∈ ds, d.before.Polls t c msg wait rest → d.after.Spared t)
    (hpunctual : ∀ d ∈ ds, d.Punctual) :
    ((∃ ds₁ d ds₂ o, ds = ds₁ ++ d :: ds₂ ∧ (∀ d' ∈ ds₁, ∀ o', ¬ PollReturns t c msg wait rest o' d') ∧
        PollReturns t c msg wait rest o d ∧
        Polled c msg wait w.now d.after.now (sightings t (ds₁ ++ [d])) (saidIn t (ds₁ ++ [d])) o) ∨
      ((∀ d ∈ ds, ∀ o, ¬ PollReturns t c msg wait rest o d) ∧
        v.now ≤ w.now + (wait.maxTries - 1) * wait.pause ∧ v.step? su ≠ none)) ∧
    (wait.interval < WaitOptions.clockEnd →
      wait.interval ≤ wait.pause * 1000000 ∧ wait.pause * 1000000 < wait.interval + 1000000) ∧
    (∀ d : WaitDefaults, d.intervalMs < 2 ^ 64 → (WaitOptions.ofDefaults d).pause = d.intervalMs) ∧
    (∀ (u : World) (found : List Nat) (options : Option WaitOptions),
      (∀ p, u.begin su found (.waitCond msg p options) =
        (u, .within (.poll (.predicate p) msg (options.getD (.ofDefaults su.driver.harness.wait)) 0))) ∧
      ∀ e h, u.place found e = .ok h → u.begin su found (.waitShown e msg options) =
        (u, .within (.poll (.shown h) msg (options.getD (.ofDefaults su.driver.harness.wait)) 0))) ∧
    ∀ (s : Sighting) (h : Nat),
      (s.finds (.shown h) = .holds true ↔
        ∃ e, s.page.elements[h]? = some e ∧ e.attached = true ∧ e.display ≠ "none") ∧
      (s.finds (.shown h) = .fault (.page (.detached h)) ↔ ¬ s.page.Attached h) := by
  have h₀ : Polling t c msg wait rest w.now [] [] w :=
    ⟨.looking (Nat.zero_le _) hcall hturn (by simp), by simp, rfl⟩
  refine ⟨?_, WaitOptions.le_pause, fun _ => WaitOptions.pause_ofDefaults,
    fun u found options => begin_wait su u found msg options, Sighting.finds_shown⟩
  rcases hrun.polling h₀ hspared hpunctual with ⟨hpolling, hnot⟩ | hreturned
  · exact .inr ⟨hnot, hpolling.stage.going⟩
  · exact .inl hreturned

end

namespace Demo

/-- A task waits for the results to be shown, and looks every ten milliseconds. Somebody else shows them after
twenty-five. -/
def unveiled : Session := .ofSteps (.ofPage page) [
  .spawn [.waitShown (.selector "#results") "results shown" (some (.ofDefaults ⟨10, 5⟩))] 0,
  .sleep 25,
  .page (.setDisplay (.selector "#results") "block"),
  .sleep 30]

/-- The task is about to look for the first time. -/
def looking : Session := unveiled.run setup 5

def belowCall : List Frame :=
  [.steps (.task 0) [] (some (.waitShown (.selector "#results") "results shown" (some (.ofDefaults ⟨10, 5⟩)))) []]

/-- The fourth look finds the results, and the fifth is never taken. -/
theorem wait_for_condition_unveiled :
    looking.world.running = some 1 ∧
      looking.world.At 1 (.poll (.shown results) "results shown" (.ofDefaults ⟨10, 5⟩) 0 :: belowCall) ∧
      (∃ ds₁ d ds₂ o, looking.deedsOf setup 31 = ds₁ ++ d :: ds₂ ∧
        PollReturns 1 (.shown results) "results shown" (.ofDefaults ⟨10, 5⟩) belowCall o d ∧
        Polled (.shown results) "results shown" (.ofDefaults ⟨10, 5⟩) 0 d.after.now (sightings 1 (ds₁ ++ [d]))
          (saidIn 1 (ds₁ ++ [d])) o) ∧
      (sightings 1 (looking.deedsOf setup 31)).map (fun s => (s.time, s.sleeps)) =
        [(0, some 10), (10, some 10), (20, some 10), (30, none)] ∧
      saidIn 1 (looking.deedsOf setup 31) = [⟨.pass, "results shown"⟩] := by
  have hsound : unveiled.Sound := Session.sound_ofSteps page _
  have hlooking : looking.Sound := (Session.course rfl hsound 5).2
  have hturn : looking.world.running = some 1 := by decide +kernel
  have hcall : looking.world.At 1 (.poll (.shown results) "results shown" (.ofDefaults ⟨10, 5⟩) 0 :: belowCall) :=
    ⟨_, rfl, rfl, rfl, rfl⟩
  have hrun : Course setup looking.world (looking.deedsOf setup 31) (looking.run setup 31).world :=
    (Session.course rfl hlooking 31).1
  have hspared : ∀ d ∈ looking.deedsOf setup 31, d.after.Spared 1 := by decide +kernel
  have hlate : ¬ (looking.run setup 31).world.now ≤ looking.world.now + (5 - 1) * 10 := by decide +kernel
  have hcondition := wait_for_condition hturn hcall hrun (fun d hd _ => hspared d hd)
    (Session.punctual_deedsOf 31 looking)
  refine ⟨hturn, hcall, ?_, by decide +kernel, by decide +kernel⟩
  rcases hcondition.1 with ⟨ds₁, d, ds₂, o, hds, -, hreturns, hpolled⟩ | ⟨-, hnow, -⟩
  · exact ⟨ds₁, d, ds₂, o, hds, hreturns, hpolled⟩
  · exact absurd hnow hlate

/-- It holds at the third look. -/
def third : Predicate := .sequence [.holds false, .holds false, .holds true]

/-- Looks at it every so many nanoseconds. -/
def lookThrice (interval : Nat) : Step := .waitCond "third time" third (some ⟨interval, 5⟩)

def hasty : Session := .ofSteps (.ofPage page) [.spawn [lookThrice 500000] 0, .sleep 30]

/-- The task that looks is given up between its first look and its second one. -/
def givenUp : Session := .ofSteps (.ofPage page) [.spawn [lookThrice 10000000] 0, .sleep 5, .abort 0, .sleep 30]

/-- Two sleeps of half a millisecond take two milliseconds, and not one. A call whose task is given up looks no
more and appends nothing, though its condition would have held in time. -/
theorem wait_for_condition_not_all :
    (let looking := hasty.run setup 5
      let ds := looking.deedsOf setup 14
      looking.world.At 1 [.poll (.predicate third) "third time" ⟨500000, 5⟩ 0,
          .steps (.task 0) [] (some (lookThrice 500000)) []] ∧
        looking.world.now = 0 ∧
        (sightings 1 ds).map (fun s => (s.time, s.finds (.predicate third))) =
          [(0, .holds false), (1, .holds false), (2, .holds true)] ∧
        saidIn 1 ds = [⟨.pass, "third time"⟩] ∧ 2 * 1000000 ≠ (3 - 1) * 500000) ∧
    (let looking := givenUp.run setup 5
      let ds := looking.deedsOf setup 20
      looking.world.At 1 [.poll (.predicate third) "third time" ⟨10000000, 5⟩ 0,
          .steps (.task 0) [] (some (lookThrice 10000000)) []] ∧
        (sightings 1 ds).map (fun s => (s.time, s.finds (.predicate third))) = [(0, .holds false)] ∧
        saidIn 1 ds = [] ∧ (looking.run setup 20).world.now = 35 ∧ (looking.run setup 20).world.log = ⟨[], []⟩) := by
  refine ⟨⟨⟨_, rfl, rfl, rfl, rfl⟩, ?_, ?_, ?_, ?_⟩, ⟨_, rfl, rfl, rfl, rfl⟩, ?_, ?_, ?_, ?_⟩ <;> decide +kernel

end Demo

end PageTest
