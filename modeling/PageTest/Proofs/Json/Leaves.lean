import PageTest.Proofs.Number.Digits
import PageTest.Json.Writer

/-! Quoted texts and whole numbers, read back up to where they end. -/

namespace PageTest.Json

variable {rest acc : List Char} {whole : Bool} {fuel n : Nat}

theorem hexValue_hexDigit : ∀ n, n < 16 → hexValue? (hexDigit n) = some n := by decide

theorem coded_control (rest : List Char) (h : n < 256) :
    coded? ('0' :: '0' :: hexDigit (n / 16) :: hexDigit (n % 16) :: rest) =
      some (some (Char.ofNat n), rest) := by
  have unit : codeUnit? ('0' :: '0' :: hexDigit (n / 16) :: hexDigit (n % 16) :: rest) =
      some (n, rest) := by
    have high := hexValue_hexDigit (n / 16) (by omega)
    have low := hexValue_hexDigit (n % 16) (by omega)
    have zero : hexValue? '0' = some 0 := rfl
    simp [codeUnit?, zero, high, low]
    omega
  simp [coded?, unit, show n < 0xD800 by omega]

/-- A character as it is written is read as itself. -/
theorem quoted_escape (c : Char) (rest acc : List Char) :
    quoted (fuel + 1) (escape c ++ rest) acc whole = quoted fuel rest (c :: acc) whole := by
  unfold escape
  split
  · subst_vars; rfl
  split
  · subst_vars; rfl
  split
  · subst_vars; rfl
  split
  · subst_vars; rfl
  split
  · subst_vars; rfl
  split
  · subst_vars; rfl
  split
  · subst_vars; rfl
  split
  next control =>
    have read := coded_control rest (show c.toNat < 256 by omega)
    rw [Char.ofNat_toNat] at read
    simp only [List.cons_append, List.nil_append, quoted, read]
  next quote backslash _ _ _ _ _ printed =>
    rw [List.cons_append, List.nil_append, quoted]
    · rw [if_neg (by simp [printed, backslash])]
    all_goals simp [quote, backslash]

theorem quoted_closed (s : List Char) (h : s.length < fuel) :
    quoted fuel (s.flatMap escape ++ '"' :: rest) acc whole = some (s.reverse ++ acc, whole, rest) := by
  induction s generalizing fuel acc with
  | nil =>
    obtain ⟨fuel, rfl⟩ := Nat.exists_eq_add_of_lt h
    rfl
  | cons c s ih =>
    obtain ⟨fuel, rfl⟩ : ∃ k, fuel = k + 1 := ⟨fuel - 1, by simp at h; omega⟩
    rw [List.flatMap_cons, List.append_assoc, quoted_escape, ih (by simpa using h)]
    simp

theorem escape_ne_nil (c : Char) : escape c ≠ [] := by
  unfold escape
  repeat' split
  all_goals simp

theorem length_le_flatMap_escape (s : List Char) : s.length ≤ (s.flatMap escape).length := by
  induction s with
  | nil => simp
  | cons c s ih =>
    have := List.length_pos_iff.2 (escape_ne_nil c)
    simp only [List.length_cons, List.flatMap_cons, List.length_append]
    omega

/-- A quoted text, after its opening quote. -/
theorem text_quote (s : String) :
    text? (s.toList.flatMap escape ++ '"' :: rest) = some (.text s, rest) := by
  have short := length_le_flatMap_escape s.toList
  rw [text?, quoted_closed s.toList (by simp only [List.length_append]; omega)]
  simp

/-- What does not carry on a whole number. -/
def Ends (cs : List Char) : Prop := ∀ c ∈ cs.head?, c.isDigit = false ∧ c ≠ '.' ∧ c ≠ 'e' ∧ c ≠ 'E'

theorem Ends.noDigit (h : Ends rest) : NoDigit rest := fun c hc => (h c hc).1

theorem digitChar_ne_zero : ∀ n < 10, 0 < n → n.digitChar ≠ '0' := by decide

theorem head_toDigits (h : 0 < n) : ∃ d ds, Nat.toDigits 10 n = d :: ds ∧ d ≠ '0' := by
  induction n using Nat.strongRecOn with
  | ind n ih =>
    by_cases small : n < 10
    · exact ⟨n.digitChar, [], Nat.toDigits_of_lt_base small, digitChar_ne_zero n small h⟩
    · obtain ⟨d, ds, digits, nonzero⟩ := ih (n / 10) (by omega) (by omega)
      refine ⟨d, ds ++ [(n % 10).digitChar], ?_, nonzero⟩
      rw [Nat.toDigits_of_base_le (by decide) (by omega), digits, List.cons_append]

theorem wholePart_toDigits (h : NoDigit rest) :
    wholePart? (Nat.toDigits 10 n ++ rest) = some (Nat.toDigits 10 n, rest) := by
  rcases Nat.eq_zero_or_pos n with rfl | pos
  · cases rest with
    | nil => rfl
    | cons c rest => simp [wholePart?, noDigit_cons.1 h]
  · have run : digits? (Nat.toDigits 10 n ++ rest) = some (Nat.toDigits 10 n, rest) := by
      rw [digits?, takeWhile_digits isDigit_toDigits h, dropWhile_digits isDigit_toDigits h]
      split
      next none => exact absurd none Nat.toDigits_ne_nil
      next => rfl
    obtain ⟨d, ds, digits, nonzero⟩ := head_toDigits pos
    rw [digits, List.cons_append] at run ⊢
    unfold wholePart?
    split
    next zero => simp_all
    next => exact run

theorem number_toDigits (h : n < 2 ^ 64) (ends : Ends rest) :
    number? (Nat.toDigits 10 n ++ rest) = some (.natural n, rest) := by
  have whole := wholePart_toDigits (n := n) ends.noDigit
  have fraction : fraction? rest = some ([], rest) := by
    unfold fraction?
    split
    next => exact absurd rfl (ends '.' rfl).2.1
    next => rfl
  have exponent : exponent? rest = some (none, rest) := by
    cases rest with
    | nil => rfl
    | cons c rest => simp [exponent?, (ends c rfl).2.2.1, (ends c rfl).2.2.2]
  obtain ⟨d, ds, digits, digit⟩ := toDigits_cons n
  have unsigned : d ≠ '-' := by
    rintro rfl
    exact absurd digit (by decide)
  have value := digitsValue_toDigits n
  rw [digits] at whole value ⊢
  rw [List.cons_append] at whole ⊢
  unfold number?
  split
  next negative cs sign =>
    split at sign
    next minus => exact absurd (List.cons.inj minus).1 unsigned
    next =>
      obtain ⟨rfl, rfl⟩ := Prod.mk.inj sign
      simp only [whole, fraction, exponent, value, bind, Option.bind]
      simp only [List.isEmpty_nil, Option.isNone_none, Bool.and_self, if_true, Bool.false_eq_true, if_false]
      exact if_pos h

end PageTest.Json
