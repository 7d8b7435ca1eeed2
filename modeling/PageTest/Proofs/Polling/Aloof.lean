import PageTest.Proofs.Machine.Strokes

/-! What the other tasks leave to the main task under the machine's own scheduler: its timers, the
turn it was promised, and that it is woken when the task that it waits for ends. -/

namespace PageTest

/-- The frame waits neither for the main task to end nor for the task `L`. -/
@[simp] def Frame.Spares (L : Nat) : Frame → Prop
  | .join t => t ≠ 0 ∧ t ≠ L
  | .drive d _ => d.load ≠ 0 ∧ d.load ≠ L
  | _ => True

theorem Frame.spares_iff {L : Nat} {f : Frame} : f.Spares L ↔ ∀ t ∈ f.awaited, t ≠ 0 ∧ t ≠ L := by
  cases f <;> simp [Frame.awaited]

namespace World

def waiter? (w : World) (t : Nat) : Option Nat := (w.task? t).bind (·.waiter)

/-- Whether a task was asked to end. -/
def doomed? (w : World) (t : Nat) : Bool := (w.task? t).any (·.cancelled)

/-- The timers of the main task. -/
def mainTimers (w : World) : List (Nat × Nat) := w.timers.filter (·.2 = 0)

/-- The main task waits for the task `L`, and nobody else has to do with either: they are in no
queue or table that others look into. No timer is overdue. -/
structure Poised (L : Nat) (w : World) : Prop where
  load : 0 < L ∧ L < w.tasks.length
  ready : 0 ∉ w.ready
  yielding : 0 ∉ w.yielding
  timers : ∀ tm ∈ w.timers, w.now < tm.1
  handles : some 0 ∉ w.handles ∧ some L ∉ w.handles
  spares : ∀ i x, i ≠ 0 → w.task? i = some x → ∀ f ∈ x.stack, f.Spares L

/-- What a move of another task is to the main task, which waits for the task `L`. -/
structure Aloof (L : Nat) (w v : World) : Prop where
  now : v.now = w.now
  main : ∀ x, w.task? 0 = some x → v.task? 0 = some x
  timers : v.mainTimers = w.mainTimers
  mainReady : w.mainReady = true → v.mainReady = true
  ready : ∀ t ∈ w.ready, t ∈ v.ready
  waiter : w.waiter? L = some 0 → v.waiter? L = some 0
  ended : v.ended? L = w.ended? L ∨ (w.waiter? L = some 0 → v.mainReady = true)
  doomed : w.doomed? L = true → v.doomed? L = true
  poised : w.Poised L → v.Poised L

/-- The part of a world that says who is to have a turn, and when. -/
structure Agenda where
  now : Nat
  tasks : List Task
  ready : List Nat
  mainReady : Bool
  yielding : List Nat
  timers : List (Nat × Nat)
  handles : List (Option Nat)

def agenda (w : World) : Agenda :=
  ⟨w.now, w.tasks, w.ready, w.mainReady, w.yielding, w.timers, w.handles⟩

end World

open World

namespace World.Aloof

variable {L t i due : Nat} {w v u : World}

theorem same (h : v.agenda = w.agenda) : Aloof L w v := by
  simp only [agenda, Agenda.mk.injEq] at h
  obtain ⟨h1, h2, h3, h4, h5, h6, h7⟩ := h
  refine ⟨h1, by simp [task?, h2], by simp [mainTimers, h6], by simp [h4], by simp [h3],
    by simp [waiter?, task?, h2], .inl (by simp [ended?, task?, h2]), by simp [doomed?, task?, h2],
    fun hp => ?_⟩
  exact ⟨by rw [h2]; exact hp.load, by rw [h3]; exact hp.ready, by rw [h5]; exact hp.yielding,
    by rw [h6, h1]; exact hp.timers, by rw [h7]; exact hp.handles,
    by simp only [task?, h2]; exact hp.spares⟩

theorem refl (w : World) : Aloof L w w := same rfl

theorem trans (h : Aloof L w v) (h' : Aloof L v u) : Aloof L w u where
  now := h'.now.trans h.now
  main x hx := h'.main x (h.main x hx)
  timers := h'.timers.trans h.timers
  mainReady := h'.mainReady ∘ h.mainReady
  ready t ht := h'.ready t (h.ready t ht)
  waiter := h'.waiter ∘ h.waiter
  ended := by
    rcases h'.ended with h1 | h1
    · rcases h.ended with h2 | h2
      · exact .inl (h1.trans h2)
      · exact .inr (h'.mainReady ∘ h2)
    · exact .inr (h1 ∘ h.waiter)
  doomed := h'.doomed ∘ h.doomed
  poised := h'.poised ∘ h.poised

/-! Turns to come -/

theorem wake (w : World) (t : Nat) : Aloof L w (w.wake t) := by
  unfold World.wake
  split_ifs with h0 hm
  · exact ⟨rfl, fun _ => id, rfl, fun _ => rfl, fun _ h => h, id, .inl rfl, id, fun hp => { hp with }⟩
  · exact refl w
  · refine ⟨rfl, fun _ => id, rfl, id, fun u hu => by simp [hu], id, .inl rfl, id, fun hp => { hp with ready := ?_ }⟩
    simpa using ⟨hp.ready, Ne.symm h0⟩

theorem wake? (w : World) (t : Option Nat) : Aloof L w (w.wake? t) := by
  cases t with
  | none => exact refl w
  | some t => exact wake w t

theorem wakeAll (ts : List Nat) (w : World) : Aloof L w (w.wakeAll ts) := by
  induction ts generalizing w with
  | nil => exact refl w
  | cons t ts ih => exact (wake w t).trans (ih _)

theorem standBack (w : World) (ht : t ≠ 0) : Aloof L w (w.standBack t) :=
  ⟨rfl, fun _ => id, rfl, id, fun _ h => h, id, .inl rfl, id, fun hp => { hp with
    yielding := by simpa [World.standBack] using ⟨Ne.symm ht, hp.yielding⟩ }⟩

theorem clearTimer (w : World) (ht : t ≠ 0) : Aloof L w (w.clearTimer t) := by
  refine ⟨rfl, fun _ => id, ?_, id, fun _ h => h, id, .inl rfl, id, fun hp => { hp with
    timers := fun tm htm => hp.timers tm (List.mem_filter.1 htm).1 }⟩
  simp only [World.clearTimer, mainTimers, List.filter_filter]
  refine List.filter_congr fun tm _ => ?_
  by_cases h0 : tm.2 = 0
  · simp [h0, Ne.symm ht]
  · simp [h0]

theorem setTimer (w : World) (ht : t ≠ 0) (hd : w.now < due) : Aloof L w (w.setTimer t due) := by
  refine (clearTimer w ht).trans ⟨rfl, fun _ => id, ?_, id, fun _ h => h, id, .inl rfl, id, fun hp => { hp with
    timers := fun tm htm => ?_ }⟩
  · simp [World.setTimer, World.clearTimer, mainTimers, List.filter_append, ht]
  · rcases List.mem_append.1 htm with h1 | h1
    · exact hp.timers tm h1
    · obtain rfl := List.mem_singleton.1 h1
      exact hd

/-! Tasks -/

theorem start (w : World) {stack : List Frame} (hs : ∀ f ∈ stack, f.Spares L) :
    Aloof L w (w.start stack).2 := by
  have old (i : Nat) (h : i < w.tasks.length) : (w.start stack).2.task? i = w.task? i := by
    simp [World.start, task?, List.getElem?_append_left h]
  have new (i : Nat) (h : w.tasks.length ≤ i) : w.task? i = none := by simp [task?, h]
  have given (i : Nat) (h : w.tasks.length ≤ i) (x : Task) (hx : (w.start stack).2.task? i = some x) :
      x = .start stack := by
    simp only [World.start, task?, List.getElem?_append_right h] at hx
    exact List.mem_singleton.1 (List.mem_of_getElem? hx)
  refine ⟨rfl, fun x hx => ?_, rfl, id, fun u hu => by simp [World.start, hu], fun hw => ?_, .inl ?_,
    fun hd => ?_, fun hp => ?_⟩
  · rw [old 0 (List.getElem?_eq_some_iff.1 hx).1]; exact hx
  · rcases Nat.lt_or_ge L w.tasks.length with h | h
    · rw [waiter?, old L h]; exact hw
    · simp [waiter?, new L h] at hw
  · rcases Nat.lt_or_ge L w.tasks.length with h | h
    · rw [ended?, old L h]; rfl
    · rw [ended?, ended?, new L h]
      cases hx : (w.start stack).2.task? L with
      | none => rfl
      | some x => obtain rfl := given L h x hx; rfl
  · rcases Nat.lt_or_ge L w.tasks.length with h | h
    · rw [doomed?, old L h]; exact hd
    · simp [doomed?, new L h] at hd
  · have h0 := hp.load
    refine { hp with
      load := ⟨h0.1, by simp [World.start]; omega⟩
      ready := by simpa [World.start] using ⟨hp.ready, by omega⟩
      spares := fun i x hi hx => ?_ }
    rcases Nat.lt_or_ge i w.tasks.length with h | h
    · exact hp.spares i x hi (by rw [← old i h]; exact hx)
    · obtain rfl := given i h x hx
      exact hs

/-- A task is changed, but not who waits for it. -/
theorem modifyTask (w : World) (t : Nat) (f : Task → Task) (h0 : t ≠ 0)
    (hw : ∀ x, (f x).waiter = x.waiter) (hc : ∀ x, x.cancelled = true → (f x).cancelled = true)
    (he : (t = L → ∀ x, (f x).ended = x.ended) ∨ (w.waiter? L = some 0 → w.mainReady = true))
    (hs : ∀ x, ∀ g ∈ (f x).stack, g ∈ x.stack ∨ g.Spares L) :
    Aloof L w (w.modifyTask t f) := by
  have self := task?_modifyTask_self w f t
  have other (i : Nat) (hi : i ≠ t) := task?_modifyTask_other w f hi
  refine ⟨rfl, fun x hx => by rw [other 0 h0.symm, hx], rfl, id, fun _ h => h, fun h => ?_,
    he.imp (fun he => ?_) id, fun h => ?_, fun hp => { hp with
    load := by simpa [World.modifyTask] using hp.load
    spares := fun i x hi hx => ?_ }⟩
  · by_cases hL : L = t
    · subst hL
      rw [waiter?] at h ⊢
      rw [self]
      cases hx : w.task? L with
      | none => simp [hx] at h
      | some x => simpa [hx, hw] using h
    · rw [waiter?, other L hL]; exact h
  · by_cases hL : L = t
    · subst hL
      rw [ended?, ended?, self]
      cases w.task? L with
      | none => rfl
      | some x => exact he rfl x
    · rw [ended?, other L hL]; rfl
  · by_cases hL : L = t
    · subst hL
      rw [doomed?] at h ⊢
      rw [self]
      cases hx : w.task? L with
      | none => simp [hx] at h
      | some x => simpa using hc x (by simpa [hx] using h)
    · rw [doomed?, other L hL]; exact h
  · by_cases hit : i = t
    · subst hit
      rw [self] at hx
      obtain ⟨y, hy, rfl⟩ := Option.map_eq_some_iff.1 hx
      intro g hg
      rcases hs y g hg with h1 | h1
      · exact hp.spares i y hi hy g h1
      · exact h1
    · exact hp.spares i x hi (by rw [← other i hit]; exact hx)

theorem waitFor (w : World) (t : Nat) (hi : i ≠ L) (h0 : i ≠ 0) : Aloof L w (w.waitFor t i) := by
  have other (j : Nat) (hj : j ≠ i) : (w.waitFor t i).task? j = w.task? j :=
    task?_modifyTask_other w _ hj
  have self : (w.waitFor t i).task? i = (w.task? i).map fun x => { x with waiter := some t } :=
    task?_modifyTask_self w _ i
  refine ⟨rfl, fun x hx => by rw [other 0 h0.symm, hx], rfl, id, fun _ h => h,
    fun h => by rw [waiter?, other L hi.symm]; exact h, .inl (by rw [ended?, other L hi.symm]; rfl),
    fun h => by rw [doomed?, other L hi.symm]; exact h, fun hp => { hp with
    load := by simpa [World.waitFor, World.modifyTask] using hp.load
    spares := fun j x hj hx => ?_ }⟩
  by_cases hji : j = i
  · subst hji
    rw [self] at hx
    obtain ⟨y, hy, rfl⟩ := Option.map_eq_some_iff.1 hx
    exact hp.spares j y hj hy
  · exact hp.spares j x hj (by rw [← other j hji]; exact hx)

theorem cancel (w : World) (h0 : t ≠ 0) : Aloof L w (w.cancel t) := by
  unfold World.cancel
  split
  · split_ifs
    · exact refl w
    · exact (modifyTask w t (fun task => { task with cancelled := true }) h0 (fun _ => rfl)
        (fun _ _ => rfl) (.inl fun _ _ => rfl) fun _ _ h => .inl h).trans (wake _ t)
  · exact refl w

/-- A task ends, and whoever waits for it is woken. -/
theorem endTask (w : World) (how : TaskReport) (h0 : t ≠ 0) : Aloof L w (w.endTask t how) := by
  by_cases h : t = L ∧ w.waiter? L = some 0
  · obtain ⟨rfl, hw⟩ := h
    have he : w.endTask t how = (w.wake 0).modifyTask t fun task =>
        { task with stack := [], returned := none, ended := some how } := by
      rw [World.endTask, show (w.task? t).bind (·.waiter) = some 0 from hw]
      rfl
    rw [he]
    exact (wake w 0).trans (modifyTask _ t _ h0 (fun _ => rfl) (fun _ => id) (.inr fun _ => rfl) (by simp))
  · refine (modifyTask w t (fun task => { task with stack := [], returned := none, ended := some how })
      h0 (fun _ => rfl) (fun _ => id) ?_ (by simp)).trans (wake? _ _)
    by_cases hL : t = L
    · exact .inr fun hw => absurd ⟨hL, hw⟩ h
    · exact .inl fun he => absurd he hL

/-! Giving up -/

theorem leaveLock (w : World) (ticket : Nat) : Aloof L w (w.leaveLock ticket) := by
  have h : Aloof L w { w with lock := (w.lock.leave ticket).2 } := same rfl
  exact h.trans (wake? _ _)

theorem dropFrame (w : World) (f : Frame) : Aloof L w (w.dropFrame f) := by
  cases f with
  | load path phase =>
    simp only [World.dropFrame]
    split
    · exact leaveLock w _
    · exact refl w
  | waitLoad loaded l => cases l <;> exact same rfl
  | _ => exact refl w

theorem dropFrames (stack : List Frame) (w : World) : Aloof L w (stack.foldl World.dropFrame w) := by
  induction stack generalizing w with
  | nil => exact refl w
  | cons f rest ih => exact (dropFrame w f).trans (ih _)

theorem cancelNow (w : World) (h0 : t ≠ 0) : Aloof L w (w.cancelNow t) := by
  have h : Aloof L w (w.dropStack t) := ((clearTimer w h0).trans (dropFrames _ _)).trans
    (modifyTask _ t (fun task => { task with stack := [], returned := none }) h0 (fun _ => rfl)
      (fun _ => id) (.inl fun _ _ => rfl) (by simp))
  exact h.trans (endTask _ _ h0)

/-! Steps -/

theorem tell (w : World) (n : Notice) : Aloof L w (w.tell n) := by
  cases n with
  | fired l => exact wake? w _
  | navigated => exact start w (by simp [navigation])

theorem withScene (w : World) (s : Scene) : Aloof L w (w.withScene s) :=
  List.foldlRecOn s.notices World.tell (motive := Aloof L w) (same rfl) fun v h n _ => h.trans (tell v n)

theorem spawn (w : World) (body : List Step) (after : Nat) : Aloof L w (w.spawn body after).1 := by
  have hs : Aloof L w (w.start (if after = 0 then [.steps (.task w.handles.length) [] none body]
      else [.sleep after, .steps (.task w.handles.length) [] none body])).2 :=
    start w (by split_ifs <;> simp)
  refine { hs with poised := fun hp => ?_ }
  have hs' := hs.poised hp
  refine { hs' with handles := ?_ }
  have := hp.load
  simpa [World.spawn, World.start] using ⟨⟨hp.handles.1, by omega⟩, hp.handles.2, by omega⟩

theorem takeBack (w : World) (i : Nat) : Aloof L w { w with handles := w.handles.set i none } where
  now := rfl
  main _ := id
  timers := rfl
  mainReady := id
  ready _ h := h
  waiter := id
  ended := .inl rfl
  doomed := id
  poised hp := { hp with
    handles := ⟨fun h => (List.mem_or_eq_of_mem_set h).elim hp.handles.1 (by simp),
      fun h => (List.mem_or_eq_of_mem_set h).elim hp.handles.2 (by simp)⟩ }

end World.Aloof

section

variable {L self : Nat} {known : Nat → Prop} {w v : World} {σ : List Signal}

/-- A stroke of a task that knows neither the main task nor the one that it waits for. -/
theorem Stroke.aloof (h : Stroke self known w σ v) (h0 : self ≠ 0) (hk : ∀ t, known t → t ≠ 0 ∧ t ≠ L) :
    w.Aloof L v := by
  cases h with
  | still h =>
    simp only [rota, Rota.mk.injEq] at h
    obtain ⟨h1, h2, -, h4, h5, h6, h7, h8, -, -⟩ := h
    exact .same (by simp only [agenda, h1, h2, h4, h5, h6, h7, h8])
  | leaveLock ticket => exact .leaveLock w ticket
  | page _ => exact .withScene w _
  | listen => exact .same rfl
  | load path => exact .start w (by simp)
  | spawn body after => exact .spawn w body after
  | takeBack i => exact .takeBack w i
  | cancel ht => exact .cancel w (hk _ ht).1
  | waitFor ht => exact .waitFor w self (hk _ ht).2 (hk _ ht).1
  | standBack => exact .standBack w h0
  | clearTimer => exact .clearTimer w h0
  | setTimer hd => exact .setTimer w h0 hd

theorem Strokes.aloof (h : Strokes self known w σ v) (h0 : self ≠ 0) (hk : ∀ t, known t → t ≠ 0 ∧ t ≠ L) :
    w.Aloof L v := by
  induction h with
  | one h => exact h.aloof h0 hk
  | more _ h ih => exact ih.trans (h.aloof h0 hk)

end

end PageTest
