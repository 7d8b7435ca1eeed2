import PageTest.Proofs.Machine.Code

/-! What a body that keeps to a code can do to the rest of the world with one move: it may write
what its code lets it write, register tests that keep to the code, and start tasks that do. It never
touches the stack of another task, and never moves the load lock on. -/

namespace PageTest

/-- What a move left of another task: it may have been asked to end, by whoever holds its handle or
drives it. -/
structure Untouched (asked : Prop) (a a' : Activity) : Prop where
  stack : a'.stack = a.stack
  returned : a'.returned = a.returned
  ended : a'.ended = a.ended
  kept : a.cancelled = true → a'.cancelled = true
  asked : a'.cancelled = a.cancelled ∨ asked

/-- How far a move may reach beyond the task that makes it. -/
structure Reach (c : Code) (drives : Bool) (k k' : Core) : Prop where
  now : k'.now = k.now
  running : k'.running = k.running
  old : ∀ i a, k.tasks[i]? = some a →
    ∃ a', k'.tasks[i]? = some a' ∧ Untouched (some i ∈ k.handles ∨ drives = true) a a'
  new : ∀ i a, k.tasks.length ≤ i → k'.tasks[i]? = some a →
    a.returned = none ∧ a.ended = none ∧ Orderly c .task a.stack none
  handles : ∀ i, some i ∈ k'.handles → some i ∈ k.handles ∨ k.tasks.length ≤ i

/-- What a move may do to the log, the registry and the lock. -/
structure Deeds (c : Code) (r : Role) (k k' : Core) : Prop where
  log : ∃ es, (∀ e ∈ es, c.Voices r e.kind) ∧ k'.log.history = k.log.history ++ es ∧
    ((r.manners c).drains = false → (r.manners c).drives = false → k'.log = k.log.appendAll es)
  tests : (∀ t ∈ k.registry.tests, t.obeys c = true) → ∀ t ∈ k'.registry.tests, t.obeys c = true
  unclosed : (r.manners c).runs = false → k.registry.state ≠ .running → k'.registry.state ≠ .running
  registry : (r.manners c).runs = false → (r.manners c).resets = false →
    ((r.manners c).registers = false ∨ k.registry.state = .running) → k'.registry = k.registry
  holder : k'.lock.holder = k.lock.holder
  tickets : k.lock.tickets ≤ k'.lock.tickets
  lock : ((r.manners c).loads = false ∨ r = .task) → k'.lock = k.lock

structure Conduct (c : Code) (r : Role) (k k' : Core) :
    Prop extends Reach c (r.manners c).drives k k', Deeds c r k k'

namespace Untouched

theorem refl {asked : Prop} (a : Activity) : Untouched asked a a := ⟨rfl, rfl, rfl, id, .inl rfl⟩

theorem trans {asked asked' : Prop} {a b d : Activity} (h : Untouched asked a b)
    (h' : Untouched asked' b d) (hs : asked' → asked) : Untouched asked a d where
  stack := h'.stack.trans h.stack
  returned := h'.returned.trans h.returned
  ended := h'.ended.trans h.ended
  kept := h'.kept ∘ h.kept
  asked := by
    rcases h'.asked with h1 | h1
    · exact h.asked.imp_left h1.trans
    · exact .inr (hs h1)

end Untouched

theorem lt_of_getElem? {α : Type} {ts : List α} {i : Nat} {a : α} (h : ts[i]? = some a) :
    i < ts.length :=
  (List.getElem?_eq_some_iff.1 h).1

namespace Reach

variable {c : Code} {drives : Bool} {k k' k'' : Core}

theorem refl (k : Core) : Reach c drives k k where
  now := rfl
  running := rfl
  old i a h := ⟨a, h, .refl a⟩
  new i a hi h := by simp [List.getElem?_eq_none hi] at h
  handles i := .inl

theorem length_le (h : Reach c drives k k') : k.tasks.length ≤ k'.tasks.length := by
  by_contra hl
  have hlt : k'.tasks.length < k.tasks.length := by omega
  obtain ⟨a', ha', -⟩ := h.old k'.tasks.length _ (List.getElem?_eq_getElem hlt)
  simp at ha'

theorem trans (h : Reach c drives k k') (h' : Reach c drives k' k'') : Reach c drives k k'' where
  now := h'.now.trans h.now
  running := h'.running.trans h.running
  old i a ha := by
    obtain ⟨b, hb, hu⟩ := h.old i a ha
    obtain ⟨d, hd, hu'⟩ := h'.old i b hb
    refine ⟨d, hd, hu.trans hu' fun hk => ?_⟩
    refine hk.imp_left fun hm => (h.handles i hm).resolve_right fun hle => ?_
    exact absurd (lt_of_getElem? ha) (by omega)
  new i a hi ha := by
    rcases Nat.lt_or_ge i k'.tasks.length with hlt | hge
    · obtain ⟨d, hd, hu⟩ := h'.old i _ (List.getElem?_eq_getElem hlt)
      obtain rfl : a = d := by rw [ha] at hd; exact Option.some.inj hd
      have hn := h.new i _ hi (List.getElem?_eq_getElem hlt)
      exact ⟨hu.returned.trans hn.1, hu.ended.trans hn.2.1, hu.stack ▸ hn.2.2⟩
    · exact h'.new i a hge ha
  handles i hi := by
    have hl := h.length_le
    rcases h'.handles i hi with h1 | h1
    · exact h.handles i h1
    · exact .inr (hl.trans h1)

theorem spawn {sts : List (List Frame)} (h : ∀ st ∈ sts, Orderly c .task st none) :
    Reach c drives k (k.spawn sts) :=
  { (refl k : Reach c drives k k) with
    old := fun i a ha => ⟨a, by simp [Core.spawn, List.getElem?_append_left (lt_of_getElem? ha), ha], .refl a⟩
    new := fun i a hi ha => by
      rw [Core.spawn, List.getElem?_append_right hi, List.getElem?_map] at ha
      obtain ⟨st, hst, rfl⟩ := Option.map_eq_some_iff.1 ha
      exact ⟨rfl, rfl, h st (List.mem_of_getElem? hst)⟩ }

theorem handOut (i : Nat) (hi : k.tasks.length ≤ i) :
    Reach c drives k { k with handles := k.handles ++ [some i] } :=
  { (refl k : Reach c drives k k) with
    handles := fun j hj => by
      rcases List.mem_append.1 hj with h | h
      · exact .inl h
      · obtain rfl : j = i := by simpa using h
        exact .inr hi }

theorem takeBack (i : Nat) : Reach c drives k { k with handles := k.handles.set i none } :=
  { (refl k : Reach c drives k k) with
    handles := fun j hj => by
      rcases List.mem_or_eq_of_mem_set hj with h | h
      · exact .inl h
      · simp at h }

theorem cancel (t : Nat) (h : some t ∈ k.handles ∨ drives = true) :
    Reach c drives k { k with tasks := k.tasks.modify t fun a =>
      if a.ended.isSome then a else { a with cancelled := true } } :=
  { (refl k : Reach c drives k k) with
    old := fun i a ha => by
      by_cases hi : t = i
      · subst hi
        refine ⟨if a.ended.isSome then a else { a with cancelled := true },
          by rw [List.getElem?_modify]; simp [ha], ?_⟩
        split_ifs
        · exact .refl a
        · exact ⟨rfl, rfl, rfl, fun _ => rfl, .inr h⟩
      · exact ⟨a, by rw [List.getElem?_modify]; simp [hi, ha], .refl a⟩
    new := fun i a hi ha => by
      rw [List.getElem?_eq_none (by simpa using hi)] at ha
      simp at ha }

end Reach

namespace Conduct

variable {c : Code} {r : Role} {k k' k'' : Core}

theorem refl (k : Core) : Conduct c r k k where
  toReach := .refl k
  log := ⟨[], by simp, by simp, fun _ _ => by simp [Log.appendAll]⟩
  tests := id
  unclosed _ := id
  registry _ _ _ := rfl
  holder := rfl
  tickets := le_rfl
  lock _ := rfl

theorem trans (h : Conduct c r k k') (h' : Conduct c r k' k'') : Conduct c r k k'' where
  toReach := h.toReach.trans h'.toReach
  log := by
    obtain ⟨es, hv, hh, hl⟩ := h.log
    obtain ⟨es', hv', hh', hl'⟩ := h'.log
    refine ⟨es ++ es', ?_, by rw [hh', hh, List.append_assoc], fun hd hr => ?_⟩
    · intro e he
      exact (List.mem_append.1 he).elim (hv e) (hv' e)
    · rw [hl' hd hr, hl hd hr]
      simp [Log.appendAll]
  tests := h'.tests ∘ h.tests
  unclosed hr := h'.unclosed hr ∘ h.unclosed hr
  registry hr hs hg := by
    have := h.registry hr hs hg
    rw [h'.registry hr hs (this ▸ hg), this]
  holder := h'.holder.trans h.holder
  tickets := h.tickets.trans h'.tickets
  lock hl := (h'.lock hl).trans (h.lock hl)

/-- A move that writes nothing and leaves the registry and the lock alone. -/
theorem of_reach (h : Reach c (r.manners c).drives k k') (hl : k'.log = k.log)
    (hr : k'.registry = k.registry) (hk : k'.lock = k.lock) : Conduct c r k k' :=
  { toReach := h
    log := ⟨[], by simp, by simp [hl], fun _ _ => by simp [Log.appendAll, hl]⟩
    tests := fun ht => by rw [hr]; exact ht
    unclosed := fun _ ht => by rw [hr]; exact ht
    registry := fun _ _ _ => hr
    holder := by rw [hk]
    tickets := by rw [hk]
    lock := fun _ => hk }

/-! The single things a move can do. -/

theorem say {e : LogEntry} (h : c.Voices r e.kind) :
    Conduct c r k { k with log := k.log.append e } :=
  { (refl k : Conduct c r k k) with
    log := ⟨[e], by simpa using h, by simp, fun _ _ => by simp [Log.append, Log.appendAll]⟩ }

theorem drain (h : (r.manners c).drains = true ∨ (r.manners c).drives = true) :
    Conduct c r k { k with log := k.log.drain.2 } :=
  { (refl k : Conduct c r k k) with log := ⟨[], by simp, by simp, fun hd hr => by simp [hd, hr] at h⟩ }

theorem register {t : Test} {g : Registry Test} (ht : t.obeys c = true)
    (hr : (r.manners c).registers = true) (h : k.registry.register t = .ok g) :
    Conduct c r k { k with registry := g } := by
  unfold Registry.register at h
  split_ifs at h with hs
  obtain rfl := Except.ok.inj h
  refine { (refl k : Conduct c r k k) with tests := ?_, unclosed := fun _ => id, registry := fun _ _ hk => ?_ }
  · intro hk u hu
    rcases List.mem_append.1 hu with h1 | h1
    · exact hk u h1
    · exact List.mem_singleton.1 h1 ▸ ht
  · exact absurd hk (by simp [hr, hs])

theorem reset (h : (r.manners c).resets = true) : Conduct c r k { k with registry := .empty } :=
  { (refl k : Conduct c r k k) with
    tests := fun _ t ht => by simp [Registry.empty] at ht
    unclosed := fun _ _ => by simp [Registry.empty]
    registry := fun _ hr => by simp [h] at hr }

/-- A run pass closes the registry when it begins and opens it when it is over. -/
theorem pass (st : RunState) (h : (r.manners c).runs = true) :
    Conduct c r k { k with registry := ⟨[], st⟩ } :=
  { (refl k : Conduct c r k k) with
    tests := fun _ t ht => by simp at ht
    unclosed := fun hr => by simp [h] at hr
    registry := fun hr => by simp [h] at hr }

theorem spawn {sts : List (List Frame)} (h : ∀ st ∈ sts, Orderly c .task st none) :
    Conduct c r k (k.spawn sts) :=
  .of_reach (.spawn h) rfl rfl rfl

theorem handOut (i : Nat) (hi : k.tasks.length ≤ i) :
    Conduct c r k { k with handles := k.handles ++ [some i] } :=
  .of_reach (.handOut i hi) rfl rfl rfl

theorem takeBack (i : Nat) : Conduct c r k { k with handles := k.handles.set i none } :=
  .of_reach (.takeBack i) rfl rfl rfl

theorem cancel (t : Nat) (h : some t ∈ k.handles ∨ (r.manners c).drives = true) :
    Conduct c r k { k with tasks := k.tasks.modify t fun a =>
      if a.ended.isSome then a else { a with cancelled := true } } :=
  .of_reach (.cancel t h) rfl rfl rfl

end Conduct

end PageTest
