import PageTest.Proofs.Number.Rounding

/-! Floating-point numbers as values. Two are the same if both are NaN, or neither is and they have one
value and one sign; the numbers of the smaller format are all numbers of the larger one. -/

namespace PageTest

namespace Binary

/-- How many units make one. -/
@[irreducible]
def scale : Nat := Nat.pow 2 1074

theorem scale_pos : 0 < scale := by
  have pos : ∀ e, 0 < Nat.pow 2 e := Nat.two_pow_pos
  unfold scale
  exact pos 1074

/-- The value of so many units of `2 ^ -1074`. -/
def signed (negative : Bool) (u : Nat) : ℚ := if negative then -(u / scale) else u / scale

def isNegative : Binary → Bool
  | .nan => false
  | .infinite s => s
  | .finite s _ _ => s

/-- What a number is worth: nothing if it is NaN. -/
def value : Binary → Option (WithBot (WithTop ℚ))
  | .nan => none
  | .infinite s => some (if s then ⊥ else ⊤)
  | .finite s m k => some ((signed s (units m k) : WithTop ℚ) : WithBot (WithTop ℚ))

variable {f : BinaryFormat} {x y z : Binary} {s t : Bool} {m k u v bits : Nat}

section Signed

theorem scale_pos_rat : (0 : ℚ) < scale := Nat.cast_pos.2 scale_pos

theorem signed_inj : signed s u = signed s v ↔ u = v := by
  have nonzero := scale_pos_rat.ne'
  cases s <;> simp [signed, div_left_inj' nonzero]

theorem signed_scale (n : Nat) : signed false (n * scale) = n := by
  simp [signed, scale_pos_rat.ne']

theorem signed_neg : signed true u = -signed false u := rfl

theorem cast_dist (u v : Nat) : ((Nat.dist u v : Nat) : ℚ) = |(u : ℚ) - v| := by
  rcases Nat.le_total u v with le | le
  · rw [Nat.dist_eq_sub_of_le le, Nat.cast_sub le, abs_sub_comm, abs_of_nonneg]
    exact sub_nonneg.2 (Nat.cast_le.2 le)
  · rw [Nat.dist_eq_sub_of_le_right le, Nat.cast_sub le, abs_of_nonneg]
    exact sub_nonneg.2 (Nat.cast_le.2 le)

theorem abs_signed_sub (s : Bool) (u v : Nat) :
    |signed s u - signed s v| = (Nat.dist u v : Nat) / (scale : ℚ) := by
  have apart : |signed false u - signed false v| = (Nat.dist u v : Nat) / (scale : ℚ) := by
    rw [cast_dist, signed, signed, if_neg Bool.false_ne_true, if_neg Bool.false_ne_true, ← sub_div, abs_div,
      abs_of_pos scale_pos_rat]
  cases s with
  | false => exact apart
  | true => rw [signed_neg, signed_neg, neg_sub_neg, abs_sub_comm, apart]

/-- Of numbers with different signs the distance is the sum. -/
theorem abs_signed_sub_not (s : Bool) (u v : Nat) :
    |signed (!s) u - signed s v| = ((u + v : Nat) : ℚ) / (scale : ℚ) := by
  have apart : |signed true u - signed false v| = ((u + v : Nat) : ℚ) / (scale : ℚ) := by
    have sum : signed true u - signed false v = -((u + v : Nat) / (scale : ℚ)) := by
      simp only [signed, if_true, if_neg Bool.false_ne_true]
      push_cast
      ring
    rw [sum, abs_neg, abs_of_nonneg (by positivity)]
  cases s with
  | false => exact apart
  | true =>
    rw [show (!true) = false from rfl, ← apart, signed_neg, signed_neg, sub_neg_eq_add, ← neg_add', abs_neg]

end Signed

section Same

theorem same_iff : x.same y = true ↔
    (x = .nan ∧ y = .nan) ∨ (x ≠ .nan ∧ y ≠ .nan ∧ x.value = y.value ∧ x.isNegative = y.isNegative) := by
  cases x with
  | nan => cases y <;> simp [same]
  | infinite s =>
    cases y with
    | nan => simp [same]
    | infinite t => cases s <;> cases t <;> simp [same, value, isNegative]
    | finite t n l => cases s <;> simp [same, value]
  | finite s m k =>
    cases y with
    | nan => simp [same]
    | infinite t => cases t <;> simp [same, value]
    | finite t n l =>
      simp only [same, value, isNegative, Bool.and_eq_true, beq_iff_eq, reduceCtorEq, false_and, false_or, ne_eq,
        not_false_eq_true, true_and, Option.some.injEq, WithBot.coe_inj, WithTop.coe_inj]
      constructor
      · rintro ⟨rfl, eq⟩
        exact ⟨by rw [eq], rfl⟩
      · rintro ⟨eq, rfl⟩
        exact ⟨rfl, signed_inj.1 eq⟩

theorem same_refl (x : Binary) : x.same x = true := by
  cases x <;> simp [same]

theorem same_symm (h : x.same y = true) : y.same x = true := by
  rw [same_iff] at h ⊢
  rcases h with ⟨hx, hy⟩ | ⟨hx, hy, value, sign⟩
  · exact .inl ⟨hy, hx⟩
  · exact .inr ⟨hy, hx, value.symm, sign.symm⟩

theorem same_trans (h : x.same y = true) (h' : y.same z = true) : x.same z = true := by
  rw [same_iff] at h h' ⊢
  rcases h with ⟨hx, hy⟩ | ⟨hx, hy, value, sign⟩
  · rcases h' with ⟨-, hz⟩ | ⟨hy', -⟩
    · exact .inl ⟨hx, hz⟩
    · exact absurd hy hy'
  · rcases h' with ⟨hy', -⟩ | ⟨-, hz, value', sign'⟩
    · exact absurd hy' hy
    · exact .inr ⟨hx, hz, value.trans value', sign.trans sign'⟩

theorem same_congr {x' y' : Binary} (hx : x'.same x = true) (hy : y'.same y = true) :
    x'.same y' = x.same y := by
  rw [Bool.eq_iff_iff]
  constructor
  · intro h
    exact same_trans (same_symm hx) (same_trans h hy)
  · intro h
    exact same_trans hx (same_trans h (same_symm hy))

end Same

section Bits

/-- A number as its format writes it. -/
structure Written (f : BinaryFormat) (m k : Nat) : Prop extends f.Holds m k where
  full : f.Full m k

theorem written_ofBits (h : ofBits f bits = .finite s m k) : Written f m k := by
  have fraction : bits % 2 ^ f.fraction < 2 ^ f.fraction := Nat.mod_lt _ (by positivity)
  have exponent : bits / 2 ^ f.fraction % 2 ^ f.exponent < 2 ^ f.exponent := Nat.mod_lt _ (by positivity)
  have double : 2 ^ (f.fraction + 1) = 2 ^ f.fraction + 2 ^ f.fraction := by ring
  have greatest : f.greatestShift = f.leastShift + (2 ^ f.exponent - 3) := rfl
  simp only [ofBits, Nat.pow_eq] at h
  split at h
  · split at h <;> cases h
  next small =>
    split at h
    · cases h
      exact ⟨⟨by omega, le_rfl, BinaryFormat.leastShift_le⟩, .inr rfl⟩
    · cases h
      exact ⟨⟨by omega, by omega, by omega⟩, .inl (by omega)⟩

theorem isNegative_ofBits (h : ofBits f bits ≠ .nan) :
    (ofBits f bits).isNegative = (bits / 2 ^ (f.fraction + f.exponent) % 2 == 1) := by
  simp only [ofBits, Nat.pow_eq] at h ⊢
  split
  next full =>
    rw [if_pos full] at h
    split
    · rfl
    next other => exact absurd (if_neg other) h
  · split <;> rfl

/-- The number that a pattern of bits stands for, in either format. -/
def ofDouble (x : BitVec 64) : Binary := ofBits .double x.toNat

def ofSingle (x : BitVec 32) : Binary := ofBits .single x.toNat

/-- The first bit is the sign. -/
theorem isNegative_ofDouble {x : BitVec 64} (h : ofDouble x ≠ .nan) : (ofDouble x).isNegative = x.msb := by
  have bound := x.isLt
  rw [ofDouble, isNegative_ofBits h, BitVec.msb_eq_decide, Bool.eq_iff_iff]
  simp only [BinaryFormat.double, beq_iff_eq, decide_eq_true_eq]
  omega

theorem isNegative_ofSingle {x : BitVec 32} (h : ofSingle x ≠ .nan) : (ofSingle x).isNegative = x.msb := by
  have bound := x.isLt
  rw [ofSingle, isNegative_ofBits h, BitVec.msb_eq_decide, Bool.eq_iff_iff]
  simp only [BinaryFormat.single, beq_iff_eq, decide_eq_true_eq]
  omega

theorem same_ofDouble (x y : BitVec 64) : (ofDouble x).same (ofDouble y) = true ↔
    (ofDouble x = .nan ∧ ofDouble y = .nan) ∨
      (ofDouble x ≠ .nan ∧ ofDouble y ≠ .nan ∧ (ofDouble x).value = (ofDouble y).value ∧ x.msb = y.msb) := by
  rw [same_iff]
  refine or_congr_right (and_congr_right fun hx => and_congr_right fun hy => and_congr_right fun _ => ?_)
  rw [isNegative_ofDouble hx, isNegative_ofDouble hy]

theorem same_ofSingle (x y : BitVec 32) : (ofSingle x).same (ofSingle y) = true ↔
    (ofSingle x = .nan ∧ ofSingle y = .nan) ∨
      (ofSingle x ≠ .nan ∧ ofSingle y ≠ .nan ∧ (ofSingle x).value = (ofSingle y).value ∧ x.msb = y.msb) := by
  rw [same_iff]
  refine or_congr_right (and_congr_right fun hx => and_congr_right fun hy => and_congr_right fun _ => ?_)
  rw [isNegative_ofSingle hx, isNegative_ofSingle hy]

end Bits

section Widening

/-- The number of the larger format nearest to one of the smaller. -/
def widened : Binary → Binary
  | .nan => .nan
  | .infinite s => .infinite s
  | .finite s m k => ofUnits .double s (units m k) 1

theorem double_holds_of_single (h : BinaryFormat.single.Holds m k) : BinaryFormat.double.Holds m k := by
  have short := h.short
  have greatest := h.greatest
  rw [show BinaryFormat.single.greatestShift = 1178 by decide] at greatest
  have room : BinaryFormat.double.greatestShift = 2045 := by decide
  refine ⟨?_, Nat.zero_le _, by omega⟩
  exact short.trans_le (Nat.pow_le_pow_right (by decide) (by decide))

/-- Widening loses nothing. -/
theorem widened_same (x : BitVec 32) : (ofSingle x).widened.same (ofSingle x) = true := by
  cases eq : ofSingle x with
  | nan => rfl
  | infinite s => exact same_refl _
  | finite s m k =>
    have held := double_holds_of_single (written_ofBits eq).toHolds
    obtain ⟨n, l, -, rounded, wide⟩ := ofUnits_finite (f := .double) (N := units m k) (D := 1) (by decide)
      one_pos held (Nat.mul_one _).ge
    rw [widened, wide]
    have exact := rounded.exact one_pos held (Nat.mul_one _).symm
    simp [same, exact]

theorem same_widened (x y : BitVec 32) :
    (ofSingle x).widened.same (ofSingle y).widened = (ofSingle x).same (ofSingle y) :=
  same_congr (widened_same x) (widened_same y)

end Widening

end Binary

end PageTest
