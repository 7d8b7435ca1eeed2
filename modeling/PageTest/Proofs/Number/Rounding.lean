import Mathlib.Tactic
import Mathlib.Data.Nat.Dist
import PageTest.Number.Binary

/-! Rounding to a format gives the nearest of its numbers, and of two that are equally near the one with the
even significand. Everything is in units of `2 ^ -1074`, so a rational number is a number of units divided
by its denominator, and distances are between natural numbers. -/

namespace PageTest

namespace BinaryFormat

variable {f : BinaryFormat} {m k : Nat}

/-- The format has a number with this significand and shift; it may be written in other ways too. -/
structure Holds (f : BinaryFormat) (m k : Nat) : Prop where
  short : m < 2 ^ (f.fraction + 1)
  least : f.leastShift ≤ k
  greatest : k ≤ f.greatestShift

/-- The significand has all its bits, unless the shift is the least there is. -/
def Full (f : BinaryFormat) (m k : Nat) : Prop := 2 ^ f.fraction ≤ m ∨ k = f.leastShift

theorem leastShift_le : f.leastShift ≤ f.greatestShift := Nat.le_add_right ..

theorem holds_zero : f.Holds 0 f.leastShift := ⟨by positivity, le_rfl, leastShift_le⟩

end BinaryFormat

namespace Binary

variable {f : BinaryFormat} {num den N D m k n l : Nat} {negative : Bool}

theorem units_eq : units m k = m * 2 ^ k := rfl

section HalfEven

theorem roundHalfEven_cases (num den : Nat) :
    (roundHalfEven num den = num / den ∧ 2 * (num % den) ≤ den) ∨
      (roundHalfEven num den = num / den + 1 ∧ den ≤ 2 * (num % den)) := by
  simp only [roundHalfEven]
  split
  · left; omega
  split
  · right; omega
  split
  · left; omega
  · right; omega

theorem roundHalfEven_tie (h : 2 * (num % den) = den) : roundHalfEven num den % 2 = 0 := by
  simp only [roundHalfEven, h, lt_irrefl, if_false]
  split <;> omega

/-- A multiple of the denominator is on one side of the two that surround the numerator. -/
theorem mul_side (j q den : Nat) : j * den ≤ q * den ∨ (q + 1) * den ≤ j * den := by
  rcases Nat.lt_or_ge q j with above | below
  · exact .inr (Nat.mul_le_mul_right den above)
  · exact .inl (Nat.mul_le_mul_right den below)

theorem dist_roundHalfEven_le (num den j : Nat) :
    Nat.dist (roundHalfEven num den * den) num ≤ Nat.dist (j * den) num := by
  have split := Nat.div_add_mod' num den
  have next : (num / den + 1) * den = num / den * den + den := Nat.succ_mul _ _
  have side := mul_side j (num / den) den
  unfold Nat.dist
  rcases Nat.eq_zero_or_pos den with rfl | pos
  · simp
  have rest := Nat.mod_lt num pos
  rcases roundHalfEven_cases num den with ⟨down, half⟩ | ⟨up, half⟩
  · rw [down]; omega
  · rw [up]; omega

/-- Where another multiple is equally near, the one that is taken is even. -/
theorem roundHalfEven_even {j : Nat} (pos : 0 < den) (other : j ≠ roundHalfEven num den)
    (tie : Nat.dist (roundHalfEven num den * den) num = Nat.dist (j * den) num) :
    roundHalfEven num den % 2 = 0 := by
  refine roundHalfEven_tie ?_
  have split := Nat.div_add_mod' num den
  have next : (num / den + 1) * den = num / den * den + den := Nat.succ_mul _ _
  have rest := Nat.mod_lt num pos
  unfold Nat.dist at tie
  rcases roundHalfEven_cases num den with ⟨down, half⟩ | ⟨up, half⟩
  · rw [down] at tie other
    rcases Nat.lt_or_gt_of_ne other with below | above
    · have := Nat.mul_le_mul_right den (show j + 1 ≤ num / den from below)
      rw [Nat.succ_mul] at this
      omega
    · have := Nat.mul_le_mul_right den (show num / den + 1 ≤ j from above)
      omega
  · rw [up] at tie other
    rcases Nat.lt_or_gt_of_ne other with below | above
    · have := Nat.mul_le_mul_right den (show j ≤ num / den by omega)
      omega
    · have := Nat.mul_le_mul_right den (show num / den + 1 + 1 ≤ j from above)
      rw [Nat.succ_mul] at this
      omega

end HalfEven

/-- `m` and `k` are what the quotient `N / D` is rounded to, if there is room for `k`. -/
structure Rounded (f : BinaryFormat) (N D m k : Nat) : Prop where
  short : m < 2 ^ (f.fraction + 1)
  least : f.leastShift ≤ k
  full : f.Full m k
  nearest : ∀ n l, n < 2 ^ (f.fraction + 1) → f.leastShift ≤ l →
    Nat.dist (units m k * D) N ≤ Nat.dist (units n l * D) N
  even : ∀ n l, n < 2 ^ (f.fraction + 1) → f.leastShift ≤ l → units n l ≠ units m k →
    Nat.dist (units m k * D) N = Nat.dist (units n l * D) N → m % 2 = 0

namespace Rounded

/-- A quotient that is a number of the format is rounded to that number. -/
theorem exact (h : Rounded f N D m k) (pos : 0 < D) (held : f.Holds n l) (eq : N = units n l * D) :
    units m k = units n l := by
  have near := h.nearest n l held.short held.least
  rw [← eq, Nat.dist_self] at near
  have zero := Nat.eq_of_dist_eq_zero (Nat.le_zero.1 near)
  exact Nat.eq_of_mul_eq_mul_right pos (zero.trans eq)

/-- There is room for the shift if the quotient is not past the greatest number. -/
theorem greatest (h : Rounded f N D m k) (pos : 0 < D) (held : f.Holds n l) (le : N ≤ units n l * D) :
    k ≤ f.greatestShift := by
  by_contra above
  have full : 2 ^ f.fraction ≤ m := h.full.resolve_right (by have := f.leastShift_le; omega)
  have less : units n l < units m k := by
    calc n * 2 ^ l < 2 ^ (f.fraction + 1) * 2 ^ l := Nat.mul_lt_mul_of_pos_right held.short (by positivity)
      _ ≤ 2 ^ (f.fraction + 1) * 2 ^ f.greatestShift :=
        Nat.mul_le_mul_left _ (Nat.pow_le_pow_right (by decide) held.greatest)
      _ = 2 ^ f.fraction * 2 ^ (f.greatestShift + 1) := by ring
      _ ≤ m * 2 ^ k := Nat.mul_le_mul full (Nat.pow_le_pow_right (by decide) (by omega))
  have far := Nat.mul_lt_mul_of_pos_right less pos
  have near := h.nearest n l held.short held.least
  unfold Nat.dist at near
  omega

theorem holds (h : Rounded f N D m k) (pos : 0 < D) (held : f.Holds n l) (le : N ≤ units n l * D) :
    f.Holds m k := ⟨h.short, h.least, h.greatest pos held le⟩

end Rounded

section Shift

/-- The shift at which the quotient fills the significand, or the least one. -/
def shiftOf (f : BinaryFormat) (N D : Nat) : Nat := max f.leastShift ((N / D).log2 - f.fraction)

theorem lt_of_shiftOf : N / (D * 2 ^ shiftOf f N D) < 2 ^ (f.fraction + 1) := by
  have log : N / D < 2 ^ ((N / D).log2 + 1) := Nat.lt_log2_self
  have up : (N / D).log2 + 1 ≤ shiftOf f N D + (f.fraction + 1) := by unfold shiftOf; omega
  rw [← Nat.div_div_eq_div_mul, Nat.div_lt_iff_lt_mul (by positivity)]
  calc N / D < 2 ^ ((N / D).log2 + 1) := log
    _ ≤ 2 ^ (shiftOf f N D + (f.fraction + 1)) := Nat.pow_le_pow_right (by decide) up
    _ = 2 ^ (f.fraction + 1) * 2 ^ shiftOf f N D := by rw [Nat.add_comm, Nat.pow_add]

/-- Above the least shift the quotient has all bits of a significand. -/
theorem le_of_shiftOf (above : f.leastShift < shiftOf f N D) :
    2 ^ f.fraction * (D * 2 ^ shiftOf f N D) ≤ N := by
  have log : shiftOf f N D = (N / D).log2 - f.fraction ∧ f.fraction < (N / D).log2 := by
    unfold shiftOf at above ⊢; omega
  have nonzero : N / D ≠ 0 := by
    intro zero
    simp [zero] at log
  calc 2 ^ f.fraction * (D * 2 ^ shiftOf f N D) = D * 2 ^ (f.fraction + shiftOf f N D) := by rw [Nat.pow_add]; ring
    _ = D * 2 ^ (N / D).log2 := by rw [show f.fraction + shiftOf f N D = (N / D).log2 by omega]
    _ ≤ D * (N / D) := Nat.mul_le_mul_left D (Nat.log2_self_le nonzero)
    _ ≤ N := Nat.mul_div_le N D

/-- A number of the format is a multiple of the last bit, or it is below the quotient and a multiple
lies between. -/
theorem multiple_or_below (short : n < 2 ^ (f.fraction + 1)) (least : f.leastShift ≤ l) (pos : 0 < D) :
    (∃ j, units n l = j * 2 ^ shiftOf f N D) ∨
      (units n l * D < 2 ^ f.fraction * (D * 2 ^ shiftOf f N D) ∧
        2 ^ f.fraction * (D * 2 ^ shiftOf f N D) ≤ N) := by
  rcases Nat.lt_or_ge l (shiftOf f N D) with small | large
  · refine .inr ⟨?_, le_of_shiftOf (by omega)⟩
    calc n * 2 ^ l * D < 2 ^ (f.fraction + 1) * 2 ^ l * D :=
          Nat.mul_lt_mul_of_pos_right (Nat.mul_lt_mul_of_pos_right short (by positivity)) pos
      _ = 2 ^ f.fraction * (D * 2 ^ (l + 1)) := by ring
      _ ≤ 2 ^ f.fraction * (D * 2 ^ shiftOf f N D) :=
        Nat.mul_le_mul_left _ (Nat.mul_le_mul_left _ (Nat.pow_le_pow_right (by decide) small))
  · refine .inl ⟨n * 2 ^ (l - shiftOf f N D), ?_⟩
    rw [units_eq, Nat.mul_assoc, ← Nat.pow_add, Nat.sub_add_cancel large]

end Shift

variable (f) in
/-- The significand at that shift, before a carry. -/
def significandOf (N D : Nat) : Nat := roundHalfEven N (D * 2 ^ shiftOf f N D)

theorem units_significandOf (N D : Nat) :
    units (significandOf f N D) (shiftOf f N D) * D = significandOf f N D * (D * 2 ^ shiftOf f N D) := by
  rw [units_eq]; ring

theorem significandOf_le : significandOf f N D ≤ 2 ^ (f.fraction + 1) := by
  have := lt_of_shiftOf (f := f) (N := N) (D := D)
  rcases roundHalfEven_cases N (D * 2 ^ shiftOf f N D) with ⟨eq, _⟩ | ⟨eq, _⟩ <;>
    rw [significandOf, eq] <;> omega

theorem full_significandOf (pos : 0 < D) : f.Full (significandOf f N D) (shiftOf f N D) := by
  rcases Nat.lt_or_ge f.leastShift (shiftOf f N D) with above | least
  · left
    have quotient : 2 ^ f.fraction ≤ N / (D * 2 ^ shiftOf f N D) :=
      (Nat.le_div_iff_mul_le (by positivity)).2 (le_of_shiftOf above)
    rcases roundHalfEven_cases N (D * 2 ^ shiftOf f N D) with ⟨eq, _⟩ | ⟨eq, _⟩ <;>
      rw [significandOf, eq] <;> omega
  · exact .inr (le_antisymm least (le_max_left ..))

theorem nearest_significandOf (pos : 0 < D) (short : n < 2 ^ (f.fraction + 1)) (least : f.leastShift ≤ l) :
    Nat.dist (units (significandOf f N D) (shiftOf f N D) * D) N ≤ Nat.dist (units n l * D) N := by
  rw [units_significandOf]
  rcases multiple_or_below (N := N) short least pos with ⟨j, eq⟩ | ⟨below, between⟩
  · rw [eq, show j * 2 ^ shiftOf f N D * D = j * (D * 2 ^ shiftOf f N D) by ring]
    exact dist_roundHalfEven_le ..
  · refine (dist_roundHalfEven_le N _ (2 ^ f.fraction)).trans ?_
    unfold Nat.dist
    omega

theorem even_significandOf (pos : 0 < D) (short : n < 2 ^ (f.fraction + 1)) (least : f.leastShift ≤ l)
    (other : units n l ≠ units (significandOf f N D) (shiftOf f N D))
    (tie : Nat.dist (units (significandOf f N D) (shiftOf f N D) * D) N = Nat.dist (units n l * D) N) :
    significandOf f N D % 2 = 0 := by
  rw [units_significandOf] at tie
  rcases multiple_or_below (N := N) short least pos with ⟨j, eq⟩ | ⟨below, between⟩
  · rw [eq, show j * 2 ^ shiftOf f N D * D = j * (D * 2 ^ shiftOf f N D) by ring] at tie
    refine roundHalfEven_even (by positivity) ?_ tie
    rintro rfl
    exact other eq
  · -- a number below the last multiple before the quotient is farther away than that multiple
    have near := dist_roundHalfEven_le N (D * 2 ^ shiftOf f N D) (2 ^ f.fraction)
    rw [show roundHalfEven N (D * 2 ^ shiftOf f N D) = significandOf f N D from rfl, tie] at near
    unfold Nat.dist at near
    omega

theorem rounded_significandOf (pos : 0 < D) (short : significandOf f N D < 2 ^ (f.fraction + 1)) :
    Rounded f N D (significandOf f N D) (shiftOf f N D) where
  short := short
  least := le_max_left ..
  full := full_significandOf pos
  nearest _ _ := nearest_significandOf pos
  even _ _ := even_significandOf pos

/-- A carry out of the significand doubles the last bit. -/
theorem rounded_carry (wide : 0 < f.fraction) (pos : 0 < D)
    (carry : significandOf f N D = 2 ^ (f.fraction + 1)) :
    Rounded f N D (2 ^ f.fraction) (shiftOf f N D + 1) := by
  have same : units (2 ^ f.fraction) (shiftOf f N D + 1) = units (significandOf f N D) (shiftOf f N D) := by
    rw [units_eq, units_eq, carry]; ring
  refine ⟨Nat.pow_lt_pow_right (by decide) (Nat.lt_succ_self _), (le_max_left ..).trans (Nat.le_succ _),
    .inl le_rfl, fun n l short least => ?_, fun _ _ _ _ _ _ => ?_⟩
  · rw [same]
    exact nearest_significandOf pos short least
  · exact Nat.mod_eq_zero_of_dvd (dvd_pow_self 2 wide.ne')

/-- What a quotient is rounded to. -/
theorem exists_rounded (wide : 0 < f.fraction) (pos : 0 < D) : ∃ m k, Rounded f N D m k ∧
    ofUnits f negative N D = if f.greatestShift < k then .infinite negative else .finite negative m k := by
  unfold ofUnits
  simp only [Nat.pow_eq]
  rw [← shiftOf, ← significandOf]
  by_cases carry : significandOf f N D = 2 ^ (f.fraction + 1)
  · exact ⟨_, _, rounded_carry wide pos carry, by rw [if_pos carry]⟩
  · have short := lt_of_le_of_ne significandOf_le carry
    exact ⟨_, _, rounded_significandOf pos short, by rw [if_neg carry]⟩

/-- A quotient that is not past the greatest number is rounded to a number. -/
theorem ofUnits_finite (wide : 0 < f.fraction) (pos : 0 < D) (held : f.Holds n l) (le : N ≤ units n l * D) :
    ∃ m k, f.Holds m k ∧ Rounded f N D m k ∧ ofUnits f negative N D = .finite negative m k := by
  obtain ⟨m, k, rounded, eq⟩ := exists_rounded (f := f) (N := N) wide pos
  have room := rounded.greatest pos held le
  exact ⟨m, k, rounded.holds pos held le, rounded, by rw [eq, if_neg (by omega)]⟩

end Binary

end PageTest
