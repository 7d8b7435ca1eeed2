import PageTest.Proofs.Polling.Aloof

/-! Whatever another task does with its turn, it leaves the main task alone. Its frames wait for
neither the main task nor the one that the main task waits for, and what it puts on its stack does
not either. -/

namespace PageTest

/-- A move that leaves the main task alone, whatever comes to be on the stack by it. -/
structure World.Meek (L : Nat) (w : World) (p : World × Move) : Prop where
  aloof : w.Aloof L p.1
  spares : ∀ g ∈ p.2.frames, g.Spares L

namespace Frame

variable {L self : Nat} {w : World}

/-- Whatever another task does, it leaves the main task alone. -/
theorem meek_act (su : Setup) (hp : w.Poised L) (h0 : self ≠ 0) {f : Frame} (ret : Option Outcome)
    (hj : f.Spares L) : w.Meek L (f.act su w self ret) := by
  have others (t : Nat) (ht : f.Knows w t) : t ≠ 0 ∧ t ≠ L := by
    rcases ht with ht | ht
    · exact spares_iff.1 hj t ht
    · exact ⟨fun h => hp.handles.1 (h ▸ ht), fun h => hp.handles.2 (h ▸ ht)⟩
  have turn := f.strikes_act su w self ret
  refine ⟨turn.strokes.aloof h0 others, fun g hg => spares_iff.2 fun t ht => ?_⟩
  rcases turn.awaited g hg t ht with known | new
  · exact others t known
  · have := hp.load
    omega

end Frame

namespace World

variable {L t : Nat} {w : World}

/-- A move is put into effect. -/
theorem Aloof.apply (w : World) (h0 : t ≠ 0) {rest : List Frame} (hr : ∀ g ∈ rest, g.Spares L)
    {m : Move} (hm : ∀ g ∈ m.frames, g.Spares L) : Aloof L w (w.apply t rest m) := by
  have hs : ∀ g ∈ m.frames ++ rest, g.Spares L := fun g hg =>
    (List.mem_append.1 hg).elim (hm g) (hr g)
  have put (ret : Option Outcome) : Aloof L w (w.modifyTask t fun task =>
      { task with stack := m.frames ++ rest, returned := ret }) :=
    modifyTask w t _ h0 (fun _ => rfl) (fun _ => id) (.inl fun _ _ => rfl) fun _ g hg => .inr (hs g hg)
  cases m with
  | goOn f => exact put none
  | call f callee => exact put none
  | leave o => exact put (some o)
  | halt f =>
    simp only [World.apply]
    have hv : Aloof L w { w.modifyTask t fun task => { task with stack := f :: rest, returned := none } with
        running := none } := (put none).trans (same rfl)
    split_ifs
    · exact hv.trans (cancelNow _ h0)
    · exact hv

/-- One move of a task that is in the middle of something. -/
theorem runTask_frame (su : Setup) {x : Task} {f : Frame} {rest : List Frame}
    (hx : w.task? t = some x) (hs : x.stack = f :: rest) :
    w.runTask su t = (f.act su w t x.returned).1.apply t rest (f.act su w t x.returned).2 := by
  unfold runTask
  cases hr : x.returned <;> simp [hx, hs, hr, Frame.act]

theorem runTask_nil (su : Setup) {x : Task} (h0 : t ≠ 0) (hx : w.task? t = some x)
    (hs : x.stack = []) : w.runTask su t =
      { w with running := none }.endTask t (reportOf (x.returned.getD (.value .done))) := by
  unfold runTask
  simp [hx, hs, h0]

/-- One move of another task. -/
theorem aloof_runTask (su : Setup) (hp : w.Poised L) (h0 : t ≠ 0) : Aloof L w (w.runTask su t) := by
  have stop : Aloof L w { w with running := none } := .same rfl
  cases hx : w.task? t with
  | none =>
    unfold runTask
    simp only [hx]
    exact stop
  | some x =>
    cases hs : x.stack with
    | nil =>
      rw [runTask_nil su h0 hx hs]
      exact stop.trans (.endTask _ _ h0)
    | cons f rest =>
      have hall : ∀ g ∈ f :: rest, g.Spares L := hs ▸ hp.spares t x h0 hx
      have hact := Frame.meek_act su hp h0 x.returned (hall f (by simp))
      rw [runTask_frame su hx hs]
      exact hact.aloof.trans (.apply _ h0 (fun g hg => hall g (by simp [hg])) hact.spares)

end World

end PageTest
