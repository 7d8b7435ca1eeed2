import PageTest.Proofs.Drive.Watch
import PageTest.Proofs.Machine.Apart

/-! From the start of a driver to its return, under any scheduler. -/

namespace PageTest

namespace World

/-- A task starts to drive a path, with some frames below. -/
def launch (su : Setup) (w : World) (D : Nat) (below : List Frame) (p : String) :
    Except Panic World :=
  match w.drive su p with
  | .error e => .error e
  | .ok (v, f) =>
    .ok { v.modifyTask D fun task => { task with stack := f :: below, returned := none } with running := some D }

end World

/-- The driver as it starts. -/
def Drive.first (su : Setup) (w : World) (p : String) : Drive :=
  ⟨p, w.tasks.length, w.now, w.now + su.driver.timeoutSecs * 1000, []⟩

variable {su : Setup} {c : Code} {p : String} {D L t₀ : Nat} {stale : List LogEntry}
variable {below : List Frame} {acts acts' : List Act} {w w₀ w' : World} {d : Drive}
variable {phase : DrivePhase} {a : Activity}

theorem World.core_launch (h : w.launch su D below p = .ok w₀) :
    su.overflows w.now su.driver.timeoutSecs = false ∧
      w₀.core = { (w.core.spawn [[.load p .arriving]]).put D (.drive (.first su w p) (.look false) :: below) none with
        running := some D } := by
  unfold launch at h
  cases hd : w.drive su p with
  | error e => simp [hd] at h
  | ok vf =>
    obtain ⟨v, f⟩ := vf
    obtain ⟨ho, hv, rfl⟩ := drive_eq_ok hd
    simp only [hd, Except.ok.injEq] at h
    subst h
    refine ⟨ho, ?_⟩
    rw [← hv, ← core_put]
    rfl

namespace Watch

/-- A driver has started its load, and nothing else has happened. -/
theorem of_launch (hcore : w₀.core = { (w.core.spawn [[.load p .arriving]]).put D
      (.drive (.first su w p) (.look false) :: below) none with running := some D })
    (hD : D < w.tasks.length) (hb : Bystanders c (· = D) w.core) (ht : w.Tabled) :
    Watch su c p D w.tasks.length w.log.waiting w.now below [] w₀ (.first su w p) (.look false)
      (.fresh [.load p .arriving]) := by
  have hlen : w.core.tasks.length = w.tasks.length := w.length_core
  have hother (i : Nat) (hi : i ≠ D) : w₀.core.tasks[i]? = (w.core.spawn [[.load p .arriving]]).tasks[i]? := by
    rw [hcore]
    exact Core.put_tasks_other _ _ hi
  have hne : w.tasks.length ≠ D := by omega
  obtain ⟨x, hx⟩ : ∃ x, w.core.tasks[D]? = some x := ⟨_, List.getElem?_eq_getElem (by omega)⟩
  have hlog : w₀.log = w.log := congrArg Core.log hcore
  refine ⟨⟨hne, by omega, ?_, .fresh, rfl, fun i b hi hb' => ?_, ?_, ?_⟩,
    ⟨x.put _ none, ?_, rfl, rfl⟩, rfl, rfl, rfl,
    rfl, by rw [hlog]; simp [Drive.first],
    .looking (congrArg Core.running hcore) (.inl rfl) rfl (by simp [Drive.first])⟩
  · rw [hother _ hne, ← hlen]
    exact List.getElem?_concat_length
  · rw [hother i fun he => hi (.inl he)] at hb'
    have hlt : i < w.core.tasks.length := by
      have := lt_of_getElem? hb'
      simp only [Core.spawn, List.length_append, List.length_map, List.length_singleton] at this
      have : i ≠ w.tasks.length := fun he => hi (.inr he)
      omega
    simp only [Core.spawn, List.getElem?_append_left hlt] at hb'
    exact hb i b (fun he => hi (.inl he)) hb'
  · rw [show w₀.handles = w.handles from congrArg Core.handles hcore]
    exact fun hm => Nat.lt_irrefl _ (ht _ hm)
  · rw [show w₀.running = some D from congrArg Core.running hcore]
    intro hr
    exact absurd (Option.some.inj hr).symm hne
  · rw [hcore]
    refine Core.put_tasks_self _ _ ?_
    simp [Core.spawn, List.getElem?_append_left (lt_of_getElem? hx), hx]

theorem driving (h : Watch su c p D L stale t₀ below acts w d phase a) : w.Driving D below := by
  obtain ⟨x, hx, hs, -⟩ := h.driver
  exact ⟨x, hx, by simp [hs]⟩

end Watch

theorem World.Back.not_driving {o : Outcome} (h : w.Back D below o) : ¬ w.Driving D below := by
  rintro ⟨x, hx, hl⟩
  obtain ⟨y, hy, hs, -⟩ := h
  obtain rfl := Option.some.inj (hx.symm.trans hy)
  simp [hs] at hl

theorem Left.not_driving (h : Left su c p D L stale t₀ below acts w) : ¬ w.Driving D below := by
  rintro ⟨x, hx, hl⟩
  cases h with
  | returned h => exact h.back.not_driving ⟨x, hx, hl⟩
  | gone hx' hs =>
    obtain rfl := Option.some.inj (hx.symm.trans hx')
    simp [hs] at hl

/-- A run up to the return of the driver. -/
theorem Watch.run (h : Watch su c p D L stale t₀ below acts w₀ d phase a) (hm : c.Mute)
    (hc : ∀ sc ∈ su.catalog, sc.obeys c = true) (hr : Run su (fun _ => False) w₀ acts' w)
    (hin : ∀ act ∈ acts', act.before.Driving D below) :
    Watched su c p D L stale t₀ below (acts ++ acts') w := by
  induction hr with
  | start => exact .inl ⟨d, phase, a, by simpa using h⟩
  | @step acts' w w' m _ hn ih =>
    rcases ih fun act ha => hin act (by simp [ha]) with ⟨d, phase, a, hw⟩ | hl
    · rw [← List.append_assoc]
      exact hw.step hm hc hn
    · exact absurd (hin ⟨m, w, w'⟩ (by simp)) hl.not_driving

/-- What holds when a driver is back. -/
theorem Watch.back {o : Outcome} (h : Watch su c p D L stale t₀ below acts w₀ d phase a)
    (hm : c.Mute) (hc : ∀ sc ∈ su.catalog, sc.obeys c = true)
    (hr : Run su (fun _ => False) w₀ acts' w) (hin : ∀ act ∈ acts', act.before.Driving D below)
    (ho : w.Back D below o) :
    ∃ a, Came su c p D L stale t₀ below (acts ++ acts') w a o := by
  rcases h.run hm hc hr hin with ⟨d, phase, a, hw⟩ | hl
  · exact absurd hw.driving ho.not_driving
  · cases hl with
    | returned hl =>
      obtain rfl := ho.eq hl.back
      exact ⟨_, hl⟩
    | gone hx _ hret => simp [ho.returned hx] at hret

/-! Worlds that are given -/

instance (D : Nat) (below : List Frame) (w : World) : Decidable (w.Driving D below) :=
  decidable_of_iff ((w.core.tasks[D]?.any fun x => below.length < x.stack.length) = true) (by
    cases h : w.core.tasks[D]? <;> simp [World.Driving, h])

theorem World.exists_back {q : Outcome → Bool}
    (h : (w.core.tasks[D]?.any fun x => x.stack.isEmpty && x.returned.any q) = true) :
    ∃ o, w.Back D [] o ∧ q o = true := by
  obtain ⟨x, hx, hq⟩ := (Option.any_eq_true _ _).1 h
  obtain ⟨hs, hr⟩ := Bool.and_eq_true_iff.1 hq
  obtain ⟨o, ho, hq⟩ := (Option.any_eq_true _ _).1 hr
  exact ⟨o, ⟨x, hx, List.isEmpty_iff.1 hs, ho⟩, hq⟩

/-- What a driver starts from that is launched for the main task of the demo. -/
def Demo.launched (w : World) (p : String) : World := (w.launch setup 0 [] p).toOption.getD w

theorem Demo.tabled (main : List Frame) (others : List (List Frame)) :
    (world main others).Tabled := by
  simp [World.Tabled, world, World.ofPage]

/-- There is nobody but the driver. -/
theorem Demo.alone (main : List Frame) : Bystanders c (· = 0) (world main []).core := by
  intro i a hi ha
  have := lt_of_getElem? ha
  simp [World.core, world] at this
  omega

end PageTest
