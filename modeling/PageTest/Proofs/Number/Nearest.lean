import PageTest.Proofs.Number.Values
import PageTest.Json.Basic

/-! The double that a number is compared by is the nearest there is. A whole number of up to 53 bits is its
own double; past that several share one. -/

namespace PageTest

/-- A rational number that the format has. -/
def BinaryFormat.Contains (f : BinaryFormat) (q : ℚ) : Prop :=
  ∃ s m k, f.Holds m k ∧ q = Binary.signed s (Binary.units m k)

namespace Binary

/-- `finite s m k` is `q` rounded to the format: nothing in it is nearer, and where something else is as
near, the significand is even. -/
structure Nearest (f : BinaryFormat) (q : ℚ) (s : Bool) (m k : Nat) : Prop where
  written : Written f m k
  nearest : ∀ r, f.Contains r → |signed s (units m k) - q| ≤ |r - q|
  even : ∀ r, f.Contains r → r ≠ signed s (units m k) → |signed s (units m k) - q| = |r - q| → m % 2 = 0

variable {f : BinaryFormat} {q : ℚ} {s : Bool} {m k N : Nat}

theorem Written.contains (s : Bool) (h : Written f m k) : f.Contains (signed s (units m k)) :=
  ⟨s, m, k, h.toHolds, rfl⟩

/-- What the format has is rounded to itself. -/
theorem Nearest.eq (h : Nearest f q s m k) (held : f.Contains q) : signed s (units m k) = q := by
  have near := h.nearest q held
  rw [sub_self, abs_zero] at near
  exact sub_eq_zero.1 (abs_nonpos_iff.1 near)

theorem Written.nearest (s : Bool) (h : Written f m k) : Nearest f (signed s (units m k)) s m k := by
  refine ⟨h, ?_, ?_⟩
  · intro r _
    rw [sub_self, abs_zero]
    exact abs_nonneg _
  · intro r _ other tie
    rw [sub_self, abs_zero, eq_comm, abs_eq_zero, sub_eq_zero] at tie
    exact absurd tie other

/-- The distance of a number of the format, in units. A number on the other side of zero is no nearer than
zero. -/
theorem exists_distance {r : ℚ} (s : Bool) (N : Nat) (held : f.Contains r) :
    ∃ n l, f.Holds n l ∧ (Nat.dist (units n l) N : ℚ) / scale ≤ |r - signed s N| ∧
      ((Nat.dist (units n l) N : ℚ) / scale = |r - signed s N| → r = signed s (units n l)) := by
  obtain ⟨t, n, l, holds, rfl⟩ := held
  by_cases sign : t = s
  · subst sign
    exact ⟨n, l, holds, (abs_signed_sub t _ N).ge, fun _ => rfl⟩
  · obtain rfl : t = !s := by cases s <;> cases t <;> simp_all
    have zero : Nat.dist (units 0 f.leastShift) N = N := by simp [units, Nat.dist]
    refine ⟨0, f.leastShift, BinaryFormat.holds_zero, ?_, ?_⟩
    · rw [zero, abs_signed_sub_not]
      gcongr
      exact Nat.le_add_left ..
    · intro eq
      rw [zero, abs_signed_sub_not, div_left_inj' scale_pos_rat.ne', Nat.cast_inj] at eq
      have none : units n l = 0 := by omega
      rw [none]
      cases s <;> simp [signed, units]

/-- Rounding, read in rational numbers. -/
theorem Rounded.nearest_signed (s : Bool) (h : Rounded f N 1 m k) (holds : f.Holds m k) :
    Nearest f (signed s N) s m k := by
  have own : |signed s (units m k) - signed s N| = (Nat.dist (units m k) N : ℚ) / scale :=
    abs_signed_sub s _ N
  refine ⟨⟨holds, h.full⟩, ?_, ?_⟩
  · intro r held
    obtain ⟨n, l, room, far, -⟩ := exists_distance s N held
    refine le_trans ?_ far
    have near := h.nearest n l room.short room.least
    rw [Nat.mul_one, Nat.mul_one] at near
    rw [own]
    gcongr
  · intro r held other tie
    obtain ⟨n, l, room, far, unique⟩ := exists_distance s N held
    have near := h.nearest n l room.short room.least
    rw [Nat.mul_one, Nat.mul_one] at near
    rw [← tie, own, div_le_div_iff_of_pos_right scale_pos_rat, Nat.cast_le] at far
    have same := le_antisymm near far
    obtain rfl := unique (by rw [← tie, own, same])
    refine h.even n l room.short room.least ?_ (by rw [Nat.mul_one, Nat.mul_one, same])
    rintro eq
    exact other (by rw [eq])

end Binary

namespace JsonNumber

open Binary

/-- The number that is meant. -/
def value : JsonNumber → ℚ
  | .natural n => n
  | .negative n => -n
  | .double (.finite s m k) => signed s (units m k)
  | .double _ => 0

def isNegative : JsonNumber → Bool
  | .natural _ => false
  | .negative _ => true
  | .double x => x.isNegative

/-- A number as a value can hold it: of 64 bits, without a sign or below zero, or a double that is
finite. -/
inductive Proper : JsonNumber → Prop
  | natural {n : Nat} (h : n < 2 ^ 64) : Proper (.natural n)
  | negative {n : Nat} (pos : 0 < n) (h : n ≤ 2 ^ 63) : Proper (.negative n)
  | double {bits : BitVec 64} (h : (ofDouble bits).isFinite = true) : Proper (.double (ofDouble bits))

variable {a b : JsonNumber} {n : Nat}

theorem proper_ofInt {i : Int} (low : -2 ^ 63 ≤ i) (high : i < 2 ^ 64) : (ofInt i).Proper := by
  unfold ofInt
  split
  · exact .negative (by omega) (by omega)
  · exact .natural (by omega)

theorem value_ofInt (i : Int) : (ofInt i).value = i := by
  unfold ofInt
  split
  next neg =>
    rw [value, ← Int.cast_natCast, ← Int.cast_neg]
    congr 1
    omega
  next =>
    rw [value, ← Int.cast_natCast]
    congr 1
    omega

theorem isNegative_ofInt (i : Int) : (ofInt i).isNegative = decide (i < 0) := by
  unfold ofInt
  split
  next neg => simp [isNegative, neg]
  next pos => simp [isNegative, pos]

theorem ofRatio_eq (s : Bool) (n : Nat) : ofRatio .double s n 1 = ofUnits .double s (n * scale) 1 := by
  unfold ofRatio scale
  rfl

theorem exists_scale : ∃ e, e ≤ 1074 ∧ scale = Nat.pow 2 e := by
  unfold scale
  exact Exists.intro _ ⟨Nat.le_refl _, Eq.refl _⟩

/-- A shift by which a number counts in powers of two, for each power that a double has. -/
theorem exists_shift {d : Nat} (h : d ≤ 971) : ∃ l, BinaryFormat.double.leastShift ≤ l ∧
    l ≤ BinaryFormat.double.greatestShift ∧ ∀ n, units n l = n * 2 ^ d * scale := by
  obtain ⟨e, small, eq⟩ := exists_scale
  have room : BinaryFormat.double.greatestShift = 2045 := by decide
  refine ⟨e + d, Nat.zero_le _, by omega, ?_⟩
  intro n
  rw [eq, Nat.pow_eq, units_eq, Nat.pow_add]
  ring

theorem signed_natural (s : Bool) (n : Nat) : signed s (n * scale) = if s then -(n : ℚ) else n := by
  cases s with
  | false => exact signed_scale n
  | true => rw [signed_neg, signed_scale, if_pos rfl]

/-- A whole number of 64 bits is rounded to a double. -/
theorem nearest_ofRatio (s : Bool) (h : n ≤ 2 ^ 64) : ∃ m k, ofRatio .double s n 1 = .finite s m k ∧
    Nearest .double (if s then -(n : ℚ) else n) s m k := by
  obtain ⟨l, least, greatest, count⟩ := exists_shift (show 64 ≤ 971 by decide)
  have room : n * scale ≤ units 1 l * 1 := by
    rw [count, Nat.mul_one, Nat.one_mul]
    exact Nat.mul_le_mul_right _ h
  obtain ⟨m, k, holds, rounded, eq⟩ :=
    ofUnits_finite (f := .double) (by decide) one_pos ⟨by decide, least, greatest⟩ room
  have near := rounded.nearest_signed s holds
  rw [signed_natural] at near
  exact ⟨m, k, (ofRatio_eq s n).trans eq, near⟩

/-- Every number is compared by the double nearest to it, with its own sign. -/
theorem Proper.nearest (h : a.Proper) : ∃ m k, a.toDouble = .finite a.isNegative m k ∧
    Nearest .double a.value a.isNegative m k := by
  cases h with
  | natural h => exact nearest_ofRatio false (Nat.le_of_lt h)
  | negative pos h => exact nearest_ofRatio true (h.trans (by decide))
  | @double bits h =>
    cases eq : ofDouble bits with
    | nan => rw [eq] at h; cases h
    | infinite s => rw [eq] at h; cases h
    | finite s m k => exact ⟨m, k, rfl, (written_ofBits eq).nearest s⟩

theorem Proper.toDouble_ne_nan (h : a.Proper) : a.toDouble ≠ .nan := by
  obtain ⟨m, k, eq, -⟩ := h.nearest
  rw [eq]
  nofun

theorem Proper.isNegative_toDouble (h : a.Proper) : a.toDouble.isNegative = a.isNegative := by
  obtain ⟨m, k, eq, -⟩ := h.nearest
  rw [eq]
  rfl

theorem Proper.same_iff (ha : a.Proper) (hb : b.Proper) :
    a.same b = true ↔ a.toDouble.value = b.toDouble.value ∧ a.isNegative = b.isNegative := by
  rw [JsonNumber.same, Binary.same_iff, ha.isNegative_toDouble, hb.isNegative_toDouble]
  simp [ha.toDouble_ne_nan, hb.toDouble_ne_nan]

/-- A number that is a double is compared by its value. -/
theorem Proper.value_toDouble (h : a.Proper) (held : BinaryFormat.double.Contains a.value) :
    a.toDouble.value = some ((a.value : WithTop ℚ) : WithBot (WithTop ℚ)) := by
  obtain ⟨m, k, eq, near⟩ := h.nearest
  rw [eq, Binary.value, near.eq held]

/-- Numbers that are doubles are compared exactly. -/
theorem Proper.same_iff_of_contains (ha : a.Proper) (hb : b.Proper)
    (held : BinaryFormat.double.Contains a.value) (held' : BinaryFormat.double.Contains b.value) :
    a.same b = true ↔ a.value = b.value ∧ a.isNegative = b.isNegative := by
  rw [ha.same_iff hb, ha.value_toDouble held, hb.value_toDouble held']
  simp

/-- A whole number of up to 53 bits is a double. -/
theorem contains_natural (s : Bool) (h : n ≤ 2 ^ 53) :
    BinaryFormat.double.Contains (if s then -(n : ℚ) else n) := by
  rcases Nat.lt_or_ge n (2 ^ 53) with lt | ge
  · obtain ⟨l, least, greatest, count⟩ := exists_shift (Nat.zero_le 971)
    refine ⟨s, n, l, ⟨lt, least, greatest⟩, ?_⟩
    rw [count, Nat.pow_zero, Nat.mul_one, signed_natural]
  · obtain rfl := le_antisymm h ge
    obtain ⟨l, least, greatest, count⟩ := exists_shift (show 53 ≤ 971 by decide)
    refine ⟨s, 1, l, ⟨by decide, least, greatest⟩, ?_⟩
    rw [count, Nat.one_mul, signed_natural]

theorem contains_edge (s : Bool) : BinaryFormat.double.Contains (if s then -2 ^ 53 else 2 ^ 53) := by
  have held := contains_natural s (le_refl (2 ^ 53))
  rwa [Nat.cast_pow, Nat.cast_ofNat] at held

theorem contains_ofInt {i : Int} (h : i.natAbs ≤ 2 ^ 53) : BinaryFormat.double.Contains (ofInt i).value := by
  unfold ofInt
  split
  · exact contains_natural true h
  · exact contains_natural false h

theorem same_ofInt_iff {i j : Int} (hi : i.natAbs ≤ 2 ^ 53) (hj : j.natAbs ≤ 2 ^ 53) :
    (ofInt i).same (ofInt j) = true ↔ i = j := by
  have proper : ∀ {i : Int}, i.natAbs ≤ 2 ^ 53 → (ofInt i).Proper := by
    intro i h
    exact proper_ofInt (by omega) (by omega)
  rw [(proper hi).same_iff_of_contains (proper hj) (contains_ofInt hi) (contains_ofInt hj), value_ofInt,
    value_ofInt, isNegative_ofInt, isNegative_ofInt]
  constructor
  · intro h
    exact Int.cast_injective h.1
  · rintro rfl
    exact ⟨rfl, rfl⟩

/-- A whole number of up to 53 bits shares its double with no other. -/
theorem eq_of_same_ofInt {i j : Int} (hi : i.natAbs < 2 ^ 53) (low : -2 ^ 63 ≤ j) (high : j < 2 ^ 64)
    (h : (ofInt i).same (ofInt j) = true) : i = j := by
  by_cases hj : j.natAbs ≤ 2 ^ 53
  · exact (same_ofInt_iff hi.le hj).1 h
  exfalso
  have proper : (ofInt i).Proper := proper_ofInt (by omega) (by omega)
  obtain ⟨m, k, eq, near⟩ := (proper_ofInt low high).nearest
  have values := ((proper.same_iff (proper_ofInt low high)).1 h).1
  rw [proper.value_toDouble (contains_ofInt hi.le), eq, Binary.value, value_ofInt] at values
  have double : ((i : Int) : ℚ) = signed (ofInt j).isNegative (units m k) := by simpa using values
  -- past 53 bits the power of two at the edge is nearer than the small number
  rcases Int.le_total 0 j with pos | neg
  · have edge := near.nearest _ (contains_edge false)
    rw [← double, value_ofInt, if_neg Bool.false_ne_true] at edge
    have above : ((2 ^ 53 : Int) : ℚ) ≤ j := Int.cast_le.2 (by omega)
    have below : ((i : Int) : ℚ) < (2 ^ 53 : Int) := Int.cast_lt.2 (by omega)
    push_cast at above below
    rw [abs_of_nonpos (by linarith), abs_of_nonpos (by linarith)] at edge
    linarith
  · have edge := near.nearest _ (contains_edge true)
    rw [← double, value_ofInt, if_pos rfl] at edge
    have above : ((j : Int) : ℚ) ≤ (-2 ^ 53 : Int) := Int.cast_le.2 (by omega)
    have below : ((-2 ^ 53 : Int) : ℚ) < i := Int.cast_lt.2 (by omega)
    push_cast at above below
    rw [abs_of_nonneg (by linarith), abs_of_nonneg (by linarith)] at edge
    linarith

theorem same_symm (h : a.same b = true) : b.same a = true := Binary.same_symm h

end JsonNumber

end PageTest
