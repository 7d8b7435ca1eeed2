import PageTest.Proofs.Machine.Strokes

/-! What a move does to the listeners that tasks wait for. It adds none to a stack but the one that
it asked the page for, and whoever waits for a listener that it completes has a turn to come. -/

namespace PageTest

namespace World

/-! What is fired -/

/-- The signals that a task fires with its next move. -/
def signals (su : Setup) (w : World) (t : Nat) : List Signal :=
  match w.task? t with
  | some ⟨f :: _, ret, _, _, _⟩ => f.signals su w ret
  | _ => []

/-! What is heard -/

/-- What each task is in the middle of. -/
def piles (w : World) : List (List Frame) := w.tasks.map (·.stack)

/-- The task has its turn, or will have one. -/
def Awake (w : World) (t : Nat) : Prop := w.running = some t ∨ t ∈ w.ready ∨ (t = 0 ∧ w.mainReady = true)

/-- What becomes of listeners, and of those who wait for them, on the way from one world to another. No
task that was there before has moved. -/
structure Hears (σ : List Signal) (w v : World) : Prop where
  scene : w.scene.Hears σ v.scene
  piles : ∃ sts, (∀ st ∈ sts, ∀ f ∈ st, f.listener? = none) ∧ v.piles = w.piles ++ sts
  awake : ∀ t, w.Awake t → v.Awake t
  told : ∀ (l : Nat) (a : Listener) (t : Nat), w.scene.page.listeners[l]? = some a → some l ∉ w.scene.slots →
    a.state = .waiting → a.signal ∈ σ → w.tasks.findIdx? (awaits l) = some t → v.Awake t

/-- The part of a world that a waiting task depends on. -/
structure Earshot where
  listeners : List Listener
  slots : List (Option Nat)
  piles : List (List Frame)
  running : Option Nat
  ready : List Nat
  mainReady : Bool

def earshot (w : World) : Earshot :=
  ⟨w.scene.page.listeners, w.scene.slots, w.piles, w.running, w.ready, w.mainReady⟩

namespace Hears

variable {σ τ : List Signal} {w v u : World}

theorem same (h : v.earshot = w.earshot) : Hears [] w v := by
  simp only [earshot, Earshot.mk.injEq] at h
  obtain ⟨h1, h2, h3, h4, h5, h6⟩ := h
  exact ⟨.same h1 h2, ⟨[], by simp, by simp [h3]⟩, fun t ht => by rwa [Awake, h4, h5, h6],
    fun _ _ _ _ _ _ hm => by simp at hm⟩

theorem refl (w : World) : Hears [] w w := same rfl

/-- Only one move in a row fires signals. -/
theorem trans (h : Hears σ w v) (h' : Hears [] v u) : Hears σ w u where
  scene := by simpa using h.scene.trans h'.scene
  piles := by
    obtain ⟨sts, hs, he⟩ := h.piles
    obtain ⟨sts', hs', he'⟩ := h'.piles
    refine ⟨sts ++ sts', fun st hst => ?_, by rw [he', he, List.append_assoc]⟩
    exact (List.mem_append.1 hst).elim (hs st) (hs' st)
  awake t := h'.awake t ∘ h.awake t
  told l a t hl hs hw hm hi := h'.awake t (h.told l a t hl hs hw hm hi)

/-! Turns to come -/

theorem wake (w : World) (t : Nat) : Hears [] w (w.wake t) := by
  unfold World.wake
  split_ifs with h0 hm
  · refine ⟨.same rfl rfl, ⟨[], by simp, by simp [World.piles]⟩, fun u hu => ?_, fun _ _ _ _ _ _ hm => by simp at hm⟩
    exact hu.imp_right fun h => h.imp_right fun h => ⟨h.1, rfl⟩
  · exact refl w
  · refine ⟨.same rfl rfl, ⟨[], by simp, by simp [World.piles]⟩, fun u hu => ?_, fun _ _ _ _ _ _ hm => by simp at hm⟩
    exact hu.imp_right fun h => h.imp_left fun h => List.mem_append_left _ h

theorem awake_wake (w : World) (t : Nat) : (w.wake t).Awake t := by
  unfold World.wake
  split_ifs with h0 hm
  · exact .inr (.inr ⟨h0, rfl⟩)
  · exact .inr (.inl hm)
  · exact .inr (.inl (by simp))

theorem wake? (w : World) (t : Option Nat) : Hears [] w (w.wake? t) := by
  cases t with
  | none => exact refl w
  | some t => exact wake w t

theorem wakeAll (ts : List Nat) (w : World) : Hears [] w (w.wakeAll ts) := by
  induction ts generalizing w with
  | nil => exact refl w
  | cons t ts ih => exact (wake w t).trans (ih _)

/-! Tasks -/

theorem start (w : World) {stack : List Frame} (hs : ∀ f ∈ stack, f.listener? = none) :
    Hears [] w (w.start stack).2 where
  scene := .same rfl rfl
  piles := ⟨[stack], by simpa using hs, by simp [World.start, World.piles, Task.start]⟩
  awake t ht := ht.imp_right fun h => h.imp_left fun h => List.mem_append_left _ h
  told _ _ _ _ _ _ hm := by simp at hm

/-- A task is changed, but not in what it is in the middle of. -/
theorem modifyTask (w : World) (t : Nat) (f : Task → Task) (hf : ∀ x, (f x).stack = x.stack) :
    Hears [] w (w.modifyTask t f) := by
  refine same ?_
  have h : (w.modifyTask t f).piles = w.piles := List.ext_getElem? fun i => by
    simp only [World.piles, World.modifyTask, List.getElem?_map, List.getElem?_modify]
    split_ifs <;> cases w.tasks[i]? <;> simp [hf]
  simp only [earshot, h]
  rfl

theorem waitFor (w : World) (t i : Nat) : Hears [] w (w.waitFor t i) := modifyTask w i _ fun _ => rfl

theorem cancel (w : World) (t : Nat) : Hears [] w (w.cancel t) := by
  unfold World.cancel
  split
  · split_ifs
    · exact refl w
    · exact (modifyTask w t (fun task => { task with cancelled := true }) fun _ => rfl).trans (wake _ t)
  · exact refl w

theorem leaveLock (w : World) (ticket : Nat) : Hears [] w (w.leaveLock ticket) := by
  have h : Hears [] w { w with lock := (w.lock.leave ticket).2 } := same rfl
  exact h.trans (wake? _ _)

/-! Steps -/

theorem tell (w : World) (n : Notice) : Hears [] w (w.tell n) := by
  cases n with
  | fired l => exact wake? w _
  | navigated => exact start w (by simp [navigation, Frame.listener?])

/-- What tasks are told does not change which one waits for a listener. -/
theorem tasks_tell (w : World) (n : Notice) : ∃ ts, (w.tell n).tasks = w.tasks ++ ts := by
  cases n with
  | fired l => exact ⟨[], by simp [World.tell, show ∀ t, (w.wake? t).tasks = w.tasks from fun t => by
      cases t with
      | none => rfl
      | some t => unfold World.wake? World.wake; dsimp only; split_ifs <;> rfl]⟩
  | navigated => exact ⟨[.start navigation], rfl⟩

theorem tells (ns : List Notice) (w : World) : Hears [] w (ns.foldl World.tell w) := by
  induction ns generalizing w with
  | nil => exact refl w
  | cons n ns ih => exact (tell w n).trans (ih _)

theorem awake_tells {ns : List Notice} {l t : Nat} (hn : .fired l ∈ ns) (w : World)
    (ht : w.tasks.findIdx? (awaits l) = some t) : (ns.foldl World.tell w).Awake t := by
  induction ns generalizing w with
  | nil => simp at hn
  | cons n ns ih =>
    rcases List.mem_cons.1 hn with rfl | hn
    · refine (tells ns _).awake t ?_
      rw [World.tell, ht]
      exact awake_wake w t
    · refine ih hn _ ?_
      obtain ⟨ts, hts⟩ := tasks_tell w n
      rw [hts, List.findIdx?_append, ht]
      rfl

theorem withScene (w : World) {s : Scene} (h : w.scene.Tells σ s) : Hears σ w (w.withScene s) := by
  have hr := tells s.notices { w with scene := { s with notices := [] } }
  exact {
    scene := by
      have h1 : w.scene.Hears σ { s with notices := [] } := ⟨h.grows, h.heard, h.slots⟩
      simpa [World.withScene] using h1.trans hr.scene
    piles := hr.piles
    awake := hr.awake
    told := fun l a t hl hs hw hm ht => awake_tells (h.told l a hl hs hw hm) _ ht }

theorem spawn (w : World) (body : List Step) (after : Nat) : Hears [] w (w.spawn body after).1 := by
  have hs : Hears [] w (w.start (if after = 0 then [.steps (.task w.handles.length) [] none body]
      else [.sleep after, .steps (.task w.handles.length) [] none body])).2 :=
    start w (by split_ifs <;> simp [Frame.listener?])
  exact { hs with }

theorem listen (w : World) (target : SignalTarget) (event : String) :
    Hears [] w { w with scene := { w.scene with page := (w.scene.page.listen target event).2 } } := by
  refine ⟨⟨by simp [Page.listen], fun i a hi _ => ?_, fun i hi => .inl hi⟩, ⟨[], by simp, by simp [World.piles]⟩,
    fun _ => id, fun _ _ _ _ _ _ hm => by simp at hm⟩
  have hlt := (List.getElem?_eq_some_iff.1 hi).1
  simp [Page.listen, List.getElem?_append_left hlt, hi, Listener.after_nil]

end Hears

end World

section

open World (Hears)

variable {self : Nat} {known : Nat → Prop} {w v : World} {σ : List Signal}

theorem Stroke.hears (h : Stroke self known w σ v) : w.Hears σ v := by
  cases h with
  | still h =>
    simp only [World.rota, Rota.mk.injEq] at h
    obtain ⟨-, h2, h3, h4, h5, -, -, -, h9, h10⟩ := h
    exact .same (by simp only [World.earshot, World.piles, h2, h3, h4, h5, h9, h10])
  | leaveLock ticket => exact .leaveLock w ticket
  | page h => exact .withScene w h
  | listen target event => exact .listen w target event
  | load path => exact .start w (by simp [Frame.listener?])
  | spawn body after => exact .spawn w body after
  | takeBack i => exact .same rfl
  | cancel _ => exact .cancel w _
  | waitFor _ => exact .waitFor w self _
  | standBack => exact .same rfl
  | clearTimer => exact .same rfl
  | setTimer _ => exact .same rfl

theorem Strokes.hears (h : Strokes self known w σ v) : w.Hears σ v := by
  induction h with
  | one h => exact h.hears
  | more _ h ih => exact ih.trans h.hears

end

namespace World

/-- No step has a listener of its own when it begins to wait. -/
theorem Hears.begin (su : Setup) (found : List Nat) (w : World) (s : Step) :
    Hears (w.stepSignals su found s) w (w.begin su found s).1 ∧
      ∀ f, (w.begin su found s).2 = .within f → f.listener? = none := by
  obtain ⟨strokes, waits⟩ := strokes_begin su 0 (fun _ => True) found w s fun _ _ => trivial
  exact ⟨strokes.hears, fun f hf => (waits f hf).1⟩

/-- What comes of a frame's turn: the listeners that are on the stack afterwards are its own or new. -/
structure Attends (w : World) (f : Frame) (σ : List Signal) (p : World × Move) : Prop where
  hears : w.Hears σ p.1
  frames : ∀ g ∈ p.2.frames, ∀ l, g.listener? = some l →
    f.listener? = some l ∨
      (w.scene.page.listeners.length ≤ l ∧ l < p.1.scene.page.listeners.length)

end World

/-- What the frame on top does with its turn. -/
theorem Frame.attends_act (su : Setup) (w : World) (self : Nat) (f : Frame) (ret : Option Outcome) :
    w.Attends f (f.signals su w ret) (f.act su w self ret) :=
  ⟨(f.strikes_act su w self ret).strokes.hears, (f.strikes_act su w self ret).listeners⟩

end PageTest
