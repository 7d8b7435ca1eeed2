import PageTest.Proofs.Number.Values
import PageTest.Number.Shortest

/-! The shortest decimal of a number rounds to the number. It lies between the ends of the interval that does;
seventeen digits always reach into it, and the intervals of two numbers do not overlap, so that different
numbers have different decimals. -/

namespace PageTest

namespace Decimal

/-- The number that a decimal writes. -/
def value (d : Decimal) : ℚ := d.digits * (10 : ℚ) ^ d.power

theorem value_stripZeros (digits : Nat) (power : Int) (fuel : Nat) :
    (stripZeros digits power fuel).value = (⟨digits, power⟩ : Decimal).value := by
  induction fuel generalizing digits power with
  | zero => rfl
  | succ fuel ih =>
    rw [stripZeros]
    split
    next ends =>
      have whole : 10 * (digits / 10) = digits := by omega
      rw [ih, value, value, zpow_add_one₀ (by norm_num), ← whole]
      push_cast
      rw [Nat.mul_div_cancel_left _ (by decide)]
      ring
    next => rfl

@[simp] theorem value_trim (d : Decimal) : d.trim.value = d.value := value_stripZeros ..

end Decimal

namespace Binary

variable {i : Interval} {tie : Tie} {point : Int} {count : Nat} {d : Decimal}

namespace Interval

/-- What lies between the ends, or is one of them if these count. -/
def Holds (i : Interval) (q : ℚ) : Prop :=
  (if i.closed then i.low ≤ q else i.low < q) ∧ (if i.closed then q ≤ i.high else q < i.high)

end Interval

/-- How many of the units that intervals are measured in make one. -/
@[irreducible]
def fineScale : Nat := Nat.pow 2 1076

/-- The candidate below the number. -/
def lowerDigits (i : Interval) (power : Int) : Nat :=
  i.value * Nat.pow 10 (-power).toNat / (fineScale * Nat.pow 10 power.toNat)

/-- Of two candidates that both lie in the interval either may be taken. -/
theorem either {P Q : Prop} {a : Nat} {power : Int} (low : P) (high : Q) (b : Bool) :
    (P ∧ some (⟨if b then a else a + 1, power⟩ : Decimal) = some ⟨a, power⟩) ∨
    (Q ∧ some (⟨if b then a else a + 1, power⟩ : Decimal) = some ⟨a + 1, power⟩) ∨
    (¬ P ∧ ¬ Q ∧ some (⟨if b then a else a + 1, power⟩ : Decimal) = none) := by
  cases b
  · exact .inr (.inl ⟨high, rfl⟩)
  · exact .inl ⟨low, rfl⟩

theorem nearestWith_cases (i : Interval) (tie : Tie) (point : Int) (count : Nat) :
    let power := point - count
    let up := Nat.pow 10 (-power).toNat
    let den := fineScale * Nat.pow 10 power.toNat
    let a := lowerDigits i power
    let low := if i.closed then i.low * up ≤ a * den else i.low * up < a * den
    let high := if i.closed then (a + 1) * den ≤ i.high * up else (a + 1) * den < i.high * up
    (low ∧ nearestWith? i tie point count = some ⟨a, power⟩) ∨
    (high ∧ nearestWith? i tie point count = some ⟨a + 1, power⟩) ∨
    (¬ low ∧ ¬ high ∧ nearestWith? i tie point count = none) := by
  unfold nearestWith? lowerDigits fineScale
  generalize Nat.pow 2 1076 = u
  dsimp only
  generalize i.value * Nat.pow 10 (-(point - count)).toNat / (u * Nat.pow 10 (point - count).toNat) = a
  by_cases closed : i.closed <;> simp only [closed, if_true, if_false, Bool.false_eq_true]
  all_goals
    split
    next low =>
      split
      next high => exact either low high _
      next => exact .inl ⟨low, rfl⟩
    next low =>
      split
      next high => exact .inr (.inl ⟨high, rfl⟩)
      next high => exact .inr (.inr ⟨low, high, rfl⟩)

section Candidates

variable {n a : Nat} {p : Int}

theorem zpow_mul_pow (p : Int) : (10 : ℚ) ^ p * (Nat.pow 10 (-p).toNat : Nat) = (Nat.pow 10 p.toNat : Nat) := by
  rcases Int.le_total 0 p with pos | neg
  · obtain ⟨n, rfl⟩ := Int.eq_ofNat_of_zero_le pos
    simp
  · obtain ⟨n, rfl⟩ := Int.exists_eq_neg_ofNat neg
    simp

theorem value_mul_pow (a : Nat) (p : Int) :
    (⟨a, p⟩ : Decimal).value * fineScale * (Nat.pow 10 (-p).toNat : Nat) =
      (a * (fineScale * Nat.pow 10 p.toNat) : Nat) := by
  rw [Decimal.value, Nat.cast_mul, Nat.cast_mul, ← zpow_mul_pow p]
  ring

/-- A decimal is compared with a number of units without fractions. -/
theorem le_value_iff : (n : ℚ) ≤ (⟨a, p⟩ : Decimal).value * fineScale ↔
    n * Nat.pow 10 (-p).toNat ≤ a * (fineScale * Nat.pow 10 p.toNat) := by
  have pos : (0 : ℚ) < (Nat.pow 10 (-p).toNat : Nat) := Nat.cast_pos.2 (Nat.pow_pos (by decide))
  rw [← mul_le_mul_iff_left₀ pos, value_mul_pow, ← Nat.cast_mul, Nat.cast_le]

theorem value_le_iff : (⟨a, p⟩ : Decimal).value * fineScale ≤ (n : ℚ) ↔
    a * (fineScale * Nat.pow 10 p.toNat) ≤ n * Nat.pow 10 (-p).toNat := by
  have pos : (0 : ℚ) < (Nat.pow 10 (-p).toNat : Nat) := Nat.cast_pos.2 (Nat.pow_pos (by decide))
  rw [← mul_le_mul_iff_left₀ pos, value_mul_pow, ← Nat.cast_mul, Nat.cast_le]

theorem lt_value_iff : (n : ℚ) < (⟨a, p⟩ : Decimal).value * fineScale ↔
    n * Nat.pow 10 (-p).toNat < a * (fineScale * Nat.pow 10 p.toNat) := by
  rw [← not_le, value_le_iff, not_le]

theorem value_lt_iff : (⟨a, p⟩ : Decimal).value * fineScale < (n : ℚ) ↔
    a * (fineScale * Nat.pow 10 p.toNat) < n * Nat.pow 10 (-p).toNat := by
  rw [← not_le, le_value_iff, not_le]

end Candidates

theorem fineScale_pos : 0 < fineScale := by
  have pos : ∀ e, 0 < Nat.pow 2 e := Nat.two_pow_pos
  unfold fineScale
  exact pos 1076

section Interval

variable {p : Int}

/-- The number is inside its interval. -/
structure Interval.Proper (i : Interval) : Prop where
  low : i.low < i.value
  high : i.value < i.high

theorem Interval.Proper.holds_lower (h : i.Proper)
    (low : if i.closed then
        i.low * Nat.pow 10 (-p).toNat ≤ lowerDigits i p * (fineScale * Nat.pow 10 p.toNat)
      else i.low * Nat.pow 10 (-p).toNat < lowerDigits i p * (fineScale * Nat.pow 10 p.toNat)) :
    i.Holds ((⟨lowerDigits i p, p⟩ : Decimal).value * fineScale) := by
  have below : (⟨lowerDigits i p, p⟩ : Decimal).value * fineScale ≤ i.value :=
    value_le_iff.2 (Nat.div_mul_le_self ..)
  have inside : (⟨lowerDigits i p, p⟩ : Decimal).value * fineScale < i.high :=
    below.trans_lt (Nat.cast_lt.2 h.high)
  by_cases closed : i.closed <;> simp only [closed, if_true, if_false, Bool.false_eq_true, Holds] at low ⊢
  · exact ⟨le_value_iff.2 low, inside.le⟩
  · exact ⟨lt_value_iff.2 low, inside⟩

theorem Interval.Proper.holds_upper (h : i.Proper)
    (high : if i.closed then
        (lowerDigits i p + 1) * (fineScale * Nat.pow 10 p.toNat) ≤ i.high * Nat.pow 10 (-p).toNat
      else (lowerDigits i p + 1) * (fineScale * Nat.pow 10 p.toNat) < i.high * Nat.pow 10 (-p).toNat) :
    i.Holds ((⟨lowerDigits i p + 1, p⟩ : Decimal).value * fineScale) := by
  have above : (i.value : ℚ) < (⟨lowerDigits i p + 1, p⟩ : Decimal).value * fineScale :=
    lt_value_iff.2 (Nat.lt_mul_of_div_lt (Nat.lt_succ_self _) (Nat.mul_pos fineScale_pos (Nat.pow_pos (by decide))))
  have inside : (i.low : ℚ) < (⟨lowerDigits i p + 1, p⟩ : Decimal).value * fineScale :=
    (Nat.cast_lt.2 h.low).trans above
  by_cases closed : i.closed <;> simp only [closed, if_true, if_false, Bool.false_eq_true, Holds] at high ⊢
  · exact ⟨inside.le, value_le_iff.2 high⟩
  · exact ⟨inside, value_lt_iff.2 high⟩

theorem Interval.Proper.holds_nearestWith (h : i.Proper) (found : nearestWith? i tie point count = some d) :
    i.Holds (d.value * fineScale) := by
  rcases nearestWith_cases i tie point count with ⟨low, eq⟩ | ⟨high, eq⟩ | ⟨-, -, eq⟩
  · obtain rfl := Option.some.inj (eq.symm.trans found)
    exact h.holds_lower low
  · obtain rfl := Option.some.inj (eq.symm.trans found)
    exact h.holds_upper high
  · simp [found] at eq

/-- Seventeen digits suffice where the interval is wide enough for its place. -/
theorem Interval.exists_nearestWith (wide : i.value < (i.high - i.low) * 10 ^ 16)
    (place : (10 : ℚ) ^ (point - 1) * fineScale ≤ i.value) : ∃ d, nearestWith? i tie point 17 = some d := by
  rcases nearestWith_cases i tie point 17 with ⟨-, eq⟩ | ⟨-, eq⟩ | ⟨low, high, -⟩
  · exact ⟨_, eq⟩
  · exact ⟨_, eq⟩
  exfalso
  set p : Int := point - (17 : Nat)
  set up := Nat.pow 10 (-p).toNat
  set den := fineScale * Nat.pow 10 p.toNat
  have pos : 0 < up := Nat.pow_pos (by decide)
  -- neither neighbour lies in the interval, so that is narrower than the distance between them
  have left : lowerDigits i p * den ≤ i.low * up := by
    by_cases closed : i.closed <;> simp only [closed, if_true, if_false, Bool.false_eq_true] at low <;> omega
  have right : i.high * up ≤ (lowerDigits i p + 1) * den := by
    by_cases closed : i.closed <;> simp only [closed, if_true, if_false, Bool.false_eq_true] at high <;> omega
  have narrow : (i.high - i.low) * up ≤ den := by
    rw [Nat.sub_mul]
    rw [Nat.succ_mul] at right
    omega
  have distance : 10 ^ 16 * den ≤ i.value * up := by
    refine value_le_iff.1 (le_trans (le_of_eq ?_) place)
    rw [Decimal.value, show point - 1 = (p + (16 : Nat) : Int) by omega, zpow_add₀ (by norm_num), zpow_natCast]
    push_cast
    ring
  have short : (i.high - i.low) * 10 ^ 16 * up ≤ i.value * up := by
    calc (i.high - i.low) * 10 ^ 16 * up = 10 ^ 16 * ((i.high - i.low) * up) := by ring
      _ ≤ 10 ^ 16 * den := Nat.mul_le_mul_left _ narrow
      _ ≤ i.value * up := distance
  exact absurd (Nat.le_of_mul_le_mul_right short pos) (by omega)

theorem Interval.Proper.holds_shortestFrom (h : i.Proper) (last : ∃ d, nearestWith? i tie point 17 = some d)
    {fuel : Nat} (pos : 0 < fuel) (sum : fuel + count = 18) :
    i.Holds ((shortestFrom i tie point fuel count).value * fineScale) := by
  induction fuel generalizing count with
  | zero => exact absurd pos (by decide)
  | succ fuel ih =>
    rw [shortestFrom]
    cases found : nearestWith? i tie point count with
    | some d =>
      simp only [Decimal.value_trim]
      exact h.holds_nearestWith found
    | none =>
      rcases Nat.eq_zero_or_pos fuel with rfl | more
      · obtain ⟨d, some⟩ := last
        obtain rfl : count = 17 := by omega
        simp [some] at found
      · exact ih more (by omega)

end Interval

section Point

theorem le_pow_leadingZeros {num den b : Nat} (fuel : Nat) (pos : 0 < fuel) (room : b ≤ fuel)
    (h : den ≤ num * 10 ^ b) : den ≤ num * 10 ^ (leadingZeros num den fuel + 1) := by
  induction fuel generalizing num b with
  | zero => exact absurd pos (by decide)
  | succ fuel ih =>
    rw [leadingZeros]
    split
    next one => simpa using one
    next more =>
      obtain ⟨b, rfl⟩ : ∃ c, b = c + 2 := by
        refine ⟨b - 2, ?_⟩
        by_contra small
        have tens : num * 10 ^ b ≤ num * 10 ^ 1 :=
          Nat.mul_le_mul_left _ (Nat.pow_le_pow_right (by decide) (by omega))
        omega
      have raised : den ≤ num * 10 * 10 ^ (b + 1) := by rwa [Nat.mul_assoc, ← Nat.pow_succ']
      have later := ih (by omega) (by omega) raised
      rwa [Nat.mul_assoc, ← Nat.pow_succ'] at later

/-- The point stands where the number has its first digit, or farther to the left. -/
theorem zpow_pointOf_le {num den : Nat} (pos : 0 < den) (h : ∃ b ≤ 400, den ≤ num * 10 ^ b) :
    (10 : ℚ) ^ (pointOf num den - 1) * den ≤ num := by
  unfold pointOf
  split
  next whole =>
    have one : 1 ≤ num / den := (Nat.one_le_div_iff pos).2 whole
    obtain ⟨w, width⟩ : ∃ w, Decimal.width (num / den) = w + 1 :=
      Nat.exists_eq_add_one.2 (List.length_pos_iff.2 Nat.toDigits_ne_nil)
    have digits : 10 ^ w ≤ num / den := by
      by_contra less
      have := (Nat.length_toDigits_le_iff (b := 10) (by decide) (k := w) ?_).2 (Nat.lt_of_not_le less)
      · have := width
        unfold Decimal.width at this
        omega
      · rcases Nat.eq_zero_or_pos w with rfl | pos
        · simp at less
          omega
        · exact pos
    rw [width]
    push_cast
    rw [add_sub_cancel_right, zpow_natCast]
    calc (10 : ℚ) ^ w * den = ((10 ^ w * den : Nat) : ℚ) := by push_cast; rfl
      _ ≤ num := Nat.cast_le.2 ((Nat.mul_le_mul_right den digits).trans (Nat.div_mul_le_self ..))
  next =>
    obtain ⟨b, room, le⟩ := h
    have zeros := le_pow_leadingZeros 400 (by decide) room le
    have shift : (10 : ℚ) ^ (-(leadingZeros num den 400 : Int) - 1) =
        ((10 : ℚ) ^ (leadingZeros num den 400 + 1))⁻¹ := by
      rw [← zpow_natCast, ← zpow_neg]
      congr 1
      push_cast
      ring
    rw [shift, inv_mul_le_iff₀ (by positivity), mul_comm]
    exact_mod_cast zeros

end Point

section Shortest

variable {f : BinaryFormat} {m k n l : Nat} {q : ℚ}

/-- How far an interval reaches below its number, in fourths of the last bit. -/
def reach (f : BinaryFormat) (m k : Nat) : Nat := if m = Nat.pow 2 f.fraction ∧ f.leastShift < k then 1 else 2

theorem low_interval : (interval f m k).low = (4 * m - reach f m k) * 2 ^ k := rfl

theorem value_interval : (interval f m k).value = 4 * m * 2 ^ k := rfl

theorem high_interval : (interval f m k).high = (4 * m + 2) * 2 ^ k := rfl

theorem closed_interval : (interval f m k).closed = true ↔ m % 2 = 0 := beq_iff_eq

theorem reach_cases : (reach f m k = 1 ∧ m = 2 ^ f.fraction ∧ f.leastShift < k) ∨
    (reach f m k = 2 ∧ (m = 2 ^ f.fraction → k ≤ f.leastShift)) := by
  unfold reach
  split
  next least => exact .inl ⟨rfl, least⟩
  next other => exact .inr ⟨rfl, fun eq => not_lt.1 fun above => other ⟨eq, above⟩⟩

theorem proper_interval (pos : 0 < m) : (interval f m k).Proper := by
  have unit : 0 < 2 ^ k := by positivity
  constructor
  · rw [low_interval, value_interval]
    rcases reach_cases (f := f) (m := m) (k := k) with ⟨eq, -⟩ | ⟨eq, -⟩ <;> rw [eq] <;>
      exact Nat.mul_lt_mul_of_pos_right (by omega) unit
  · rw [value_interval, high_interval]
    exact Nat.mul_lt_mul_of_pos_right (by omega) unit

theorem wide_interval (narrow : f.fraction ≤ 52) (pos : 0 < m) (short : m < 2 ^ (f.fraction + 1)) :
    (interval f m k).value < ((interval f m k).high - (interval f m k).low) * 10 ^ 16 := by
  have most : 2 ^ f.fraction ≤ 2 ^ 52 := Nat.pow_le_pow_right (by decide) narrow
  rw [Nat.pow_succ] at short
  rw [low_interval, value_interval, high_interval, ← Nat.sub_mul, Nat.mul_right_comm _ (2 ^ k)]
  refine Nat.mul_lt_mul_of_pos_right ?_ (Nat.two_pow_pos k)
  rcases reach_cases (f := f) (m := m) (k := k) with ⟨eq, least, -⟩ | ⟨eq, -⟩ <;> rw [eq] <;> omega

theorem exists_fineScale_le : ∃ b ≤ 400, fineScale ≤ 10 ^ b := by
  have power : ∀ a b, a ≤ 3 * b → b ≤ 400 → ∃ c ≤ 400, Nat.pow 2 a ≤ 10 ^ c := by
    intro a b le room
    refine ⟨b, room, ?_⟩
    calc 2 ^ a ≤ 2 ^ (3 * b) := Nat.pow_le_pow_right (by decide) le
      _ = 8 ^ b := by rw [Nat.pow_mul]
      _ ≤ 10 ^ b := Nat.pow_le_pow_left (by decide) b
  unfold fineScale
  exact power 1076 359 (by decide) (by decide)

/-- The shortest decimal of a number rounds to the number. -/
theorem Written.holds_shortest (h : Written f m k) (narrow : f.fraction ≤ 52) (pos : 0 < m) (tie : Tie) :
    (interval f m k).Holds ((shortest f tie m k).value * fineScale) := by
  have proper := proper_interval (f := f) (k := k) pos
  have scale : Nat.pow 2 1076 = fineScale := by unfold fineScale; rfl
  have found : ∃ d, nearestWith? (interval f m k) tie (pointOf (interval f m k).value fineScale) 17 = some d := by
    refine Interval.exists_nearestWith (wide_interval narrow pos h.short) ?_
    obtain ⟨b, room, le⟩ := exists_fineScale_le
    exact zpow_pointOf_le fineScale_pos
      ⟨b, room, le.trans (Nat.le_mul_of_pos_left _ (Nat.zero_lt_of_lt proper.low))⟩
  rw [shortest, if_neg pos.ne', scale]
  exact proper.holds_shortestFrom found (by decide) rfl

/-- The number with the greater shift is the greater one. -/
theorem Written.units_lt (h : Written f m k) (h' : Written f n l) (below : k < l) : units m k < units n l := by
  have full : 2 ^ f.fraction ≤ n := h'.full.resolve_right (by have := h.least; omega)
  calc m * 2 ^ k < 2 ^ (f.fraction + 1) * 2 ^ k := Nat.mul_lt_mul_of_pos_right h.short (Nat.two_pow_pos k)
    _ = 2 ^ f.fraction * 2 ^ (k + 1) := by ring
    _ ≤ n * 2 ^ l := Nat.mul_le_mul full (Nat.pow_le_pow_right (by decide) below)

/-- Where two intervals meet, one of their numbers is odd, so that one of them is open. -/
theorem Written.apart (h : Written f m k) (h' : Written f n l) (less : units m k < units n l) :
    (interval f m k).high ≤ (interval f n l).low ∧
      ((interval f m k).high = (interval f n l).low → ¬ (m % 2 = 0 ∧ n % 2 = 0)) := by
  have unit : 0 < 2 ^ k := Nat.two_pow_pos k
  rw [high_interval, low_interval]
  rcases Nat.lt_trichotomy k l with below | rfl | above
  · obtain ⟨e, rfl⟩ := Nat.exists_eq_add_of_lt below
    have full : 2 ^ f.fraction ≤ n := h'.full.resolve_right (by have := h.least; omega)
    have power : 2 ^ (k + e + 1) = 2 * 2 ^ e * 2 ^ k := by ring
    have near : 4 * m + 2 ≤ (4 * n - reach f n (k + e + 1)) * 2 ∧
        (4 * m + 2 = (4 * n - reach f n (k + e + 1)) * 2 → m % 2 = 1) := by
      have least := h.least
      have short := h.short
      rw [Nat.pow_succ] at short
      rcases reach_cases (f := f) (m := n) (k := k + e + 1) with ⟨eq, edge, -⟩ | ⟨eq, edge⟩ <;> omega
    have twice : 2 ≤ 2 * 2 ^ e := Nat.le_mul_of_pos_right 2 (Nat.two_pow_pos e)
    have far : (4 * n - reach f n (k + e + 1)) * 2 ≤ (4 * n - reach f n (k + e + 1)) * (2 * 2 ^ e) :=
      Nat.mul_le_mul_left _ twice
    rw [power, ← Nat.mul_assoc]
    refine ⟨Nat.mul_le_mul_right _ (near.1.trans far), fun eq => ?_⟩
    have meet := Nat.eq_of_mul_eq_mul_right unit eq
    have := near.2 (by omega)
    omega
  · have order : m < n := Nat.lt_of_mul_lt_mul_right less
    rcases reach_cases (f := f) (m := n) (k := k) with ⟨eq, -⟩ | ⟨eq, -⟩ <;> rw [eq]
    · refine ⟨Nat.mul_le_mul_right _ (by omega), fun meet => ?_⟩
      have := Nat.eq_of_mul_eq_mul_right unit meet
      omega
    · refine ⟨Nat.mul_le_mul_right _ (by omega), fun meet => ?_⟩
      have := Nat.eq_of_mul_eq_mul_right unit meet
      omega
  · exact absurd less (h'.units_lt h above).asymm

theorem Interval.Holds.low_le {i : Interval} (h : i.Holds q) : i.low ≤ q := by
  unfold Holds at h
  split at h
  · exact h.1
  · exact h.1.le

theorem Interval.Holds.le_high {i : Interval} (h : i.Holds q) : q ≤ i.high := by
  unfold Holds at h
  split at h
  · exact h.2
  · exact h.2.le

theorem Interval.Holds.closed_of_eq {i : Interval} (h : i.Holds q) (edge : q = i.low ∨ q = i.high) :
    i.closed = true := by
  by_contra open_
  rw [Holds, if_neg open_, if_neg open_] at h
  rcases edge with rfl | rfl
  · exact lt_irrefl _ h.1
  · exact lt_irrefl _ h.2

theorem Written.not_both (h : Written f m k) (h' : Written f n l) (less : units m k < units n l)
    (mem : (interval f m k).Holds q) : ¬ (interval f n l).Holds q := by
  intro mem'
  obtain ⟨le, meet⟩ := h.apart h' less
  have order : ((interval f m k).high : ℚ) ≤ (interval f n l).low := Nat.cast_le.2 le
  have edge : q = (interval f m k).high := le_antisymm mem.le_high (order.trans mem'.low_le)
  have edge' : q = (interval f n l).low := le_antisymm (mem.le_high.trans order) mem'.low_le
  refine meet (Nat.cast_injective (R := ℚ) (edge.symm.trans edge')) ⟨?_, ?_⟩
  · exact closed_interval.1 (mem.closed_of_eq (.inr edge))
  · exact closed_interval.1 (mem'.closed_of_eq (.inl edge'))

/-- A number is written in one way. -/
theorem Written.eq_of_units (h : Written f m k) (h' : Written f n l) (eq : units m k = units n l) :
    m = n ∧ k = l := by
  rcases Nat.lt_trichotomy k l with below | rfl | above
  · exact absurd eq (h.units_lt h' below).ne
  · exact ⟨Nat.eq_of_mul_eq_mul_right (Nat.two_pow_pos k) eq, rfl⟩
  · exact absurd eq (h'.units_lt h above).ne'

theorem Written.shortest_pos (h : Written f m k) (narrow : f.fraction ≤ 52) (pos : 0 < m) (tie : Tie) :
    0 < (shortest f tie m k).value := by
  have mem := h.holds_shortest narrow pos tie
  have low : 0 < (interval f m k).low := by
    rw [low_interval]
    rcases reach_cases (f := f) (m := m) (k := k) with ⟨eq, -⟩ | ⟨eq, -⟩ <;> rw [eq] <;>
      exact Nat.mul_pos (by omega) (by positivity)
  have := mem.low_le.trans_lt' (Nat.cast_pos.2 low)
  exact pos_of_mul_pos_left this (Nat.cast_nonneg _)

/-- Different numbers have different shortest decimals. -/
theorem Written.eq_of_shortest (h : Written f m k) (h' : Written f n l) (narrow : f.fraction ≤ 52) {tie : Tie}
    (eq : (shortest f tie m k).value = (shortest f tie n l).value) : m = n ∧ k = l := by
  have zero : (shortest f tie 0 k).value = 0 ∧ (shortest f tie 0 l).value = 0 := by
    simp [shortest, Decimal.value]
  refine h.eq_of_units h' ?_
  rcases Nat.eq_zero_or_pos m with rfl | pos
  · rcases Nat.eq_zero_or_pos n with rfl | pos'
    · simp [units]
    · exact absurd (eq.symm.trans zero.1) (h'.shortest_pos narrow pos' tie).ne'
  rcases Nat.eq_zero_or_pos n with rfl | pos'
  · exact absurd (eq.trans zero.2) (h.shortest_pos narrow pos tie).ne'
  have mem := h.holds_shortest narrow pos tie
  have mem' := h'.holds_shortest narrow pos' tie
  rw [← eq] at mem'
  rcases Nat.lt_trichotomy (units m k) (units n l) with less | same | greater
  · exact absurd mem' (h.not_both h' less mem)
  · exact same
  · exact absurd mem (h'.not_both h greater mem')

end Shortest

end Binary
end PageTest
