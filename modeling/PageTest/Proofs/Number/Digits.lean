import Mathlib.Tactic
import PageTest.Json.Reader
import PageTest.Time.Timestamp

/-! Rows of decimal digits: how far a reader that takes digits gets, and the number that it reads. No reader takes
a digit for a blank. -/

namespace PageTest

/-- A text that does not go on with a digit. -/
def NoDigit (cs : List Char) : Prop := ∀ c ∈ cs.head?, c.isDigit = false

variable {ds rest : List Char}

@[simp] theorem noDigit_nil : NoDigit [] := by simp [NoDigit]

@[simp] theorem noDigit_cons {c : Char} : NoDigit (c :: rest) ↔ c.isDigit = false := by simp [NoDigit]

theorem NoDigit.takeWhile (h : NoDigit rest) : rest.takeWhile Char.isDigit = [] := by
  cases rest with
  | nil => rfl
  | cons c rest => simpa [List.takeWhile_cons] using h

theorem NoDigit.dropWhile (h : NoDigit rest) : rest.dropWhile Char.isDigit = rest := by
  cases rest with
  | nil => rfl
  | cons c rest => simp [noDigit_cons.1 h]

theorem takeWhile_digits (digits : ∀ c ∈ ds, c.isDigit = true) (h : NoDigit rest) :
    (ds ++ rest).takeWhile Char.isDigit = ds := by
  rw [List.takeWhile_append_of_pos digits, h.takeWhile, List.append_nil]

theorem dropWhile_digits (digits : ∀ c ∈ ds, c.isDigit = true) (h : NoDigit rest) :
    (ds ++ rest).dropWhile Char.isDigit = rest := by
  rw [List.dropWhile_append_of_pos digits, h.dropWhile]

/-- A row of digits begins with one. -/
theorem digits_cons (digits : ∀ c ∈ ds, c.isDigit = true) (full : ds ≠ []) :
    ∃ d ds', ds = d :: ds' ∧ d.isDigit = true := by
  obtain ⟨d, ds, rfl⟩ := List.exists_cons_of_ne_nil full
  exact ⟨d, ds, rfl, digits d List.mem_cons_self⟩

theorem isDigit_toDigits {n : Nat} : ∀ c ∈ Nat.toDigits 10 n, c.isDigit = true :=
  fun _ hc => Nat.isDigit_of_mem_toDigits (by decide) (by decide) hc

theorem toDigits_cons (n : Nat) : ∃ d ds, Nat.toDigits 10 n = d :: ds ∧ d.isDigit = true :=
  digits_cons isDigit_toDigits Nat.toDigits_ne_nil

namespace Text

variable {c : Char}

theorem isBlank_of_isDigit (h : c.isDigit = true) : isBlank c = false := by
  simp only [Char.isDigit, Bool.and_eq_true, decide_eq_true_eq, ge_iff_le, UInt32.le_iff_toNat_le] at h
  have between : 48 ≤ c.toNat ∧ c.toNat ≤ 57 := h
  simp only [isBlank, Bool.or_eq_false_iff, Bool.and_eq_false_iff, decide_eq_false_iff_not,
    beq_eq_false_iff_ne]
  omega

theorem trimStart_cons (h : isBlank c = false) : trimStart (c :: rest) = c :: rest :=
  List.dropWhile_cons_of_neg (by simp [h])

theorem trimStart_digits (digits : ∀ c ∈ ds, c.isDigit = true) (full : ds ≠ []) :
    trimStart (ds ++ rest) = ds ++ rest := by
  obtain ⟨d, ds, rfl, digit⟩ := digits_cons digits full
  exact trimStart_cons (isBlank_of_isDigit digit)

end Text

namespace Json

variable {c : Char}

theorem skipBlanks_cons (h : isBlank c = false) : skipBlanks (c :: rest) = c :: rest :=
  List.dropWhile_cons_of_neg (by simp [h])

/-- The blanks of a JSON text are blanks everywhere. -/
theorem isBlank_text (h : isBlank c = true) : Text.isBlank c = true := by
  simp only [isBlank, Bool.or_eq_true, decide_eq_true_eq, or_assoc] at h
  rcases h with rfl | rfl | rfl | rfl <;> rfl

theorem isBlank_of_isDigit (h : c.isDigit = true) : isBlank c = false := by
  have visible := Text.isBlank_of_isDigit h
  exact Bool.eq_false_iff.2 fun blank => by simp [isBlank_text blank] at visible

theorem digitsValue_eq (ds : List Char) : digitsValue ds = Nat.ofDigitChars 10 ds 0 :=
  Nat.ofDigitChars_eq_foldl.symm

@[simp] theorem digitsValue_toDigits (n : Nat) : digitsValue (Nat.toDigits 10 n) = n := by
  rw [digitsValue_eq, Nat.ofDigitChars_ten_toDigits]

end Json

namespace Timestamp

/-- The digits of a number, with zeros in front of a short one. -/
def paddedDigits (width n : Nat) : List Char :=
  List.replicate (width - (Nat.toDigits 10 n).length) '0' ++ Nat.toDigits 10 n

@[simp] theorem toList_padded (width n : Nat) : (padded width n).toList = paddedDigits width n := by
  simp [padded, paddedDigits, Nat.repr_eq_ofList_toDigits]

variable (width n : Nat)

theorem isDigit_paddedDigits : ∀ c ∈ paddedDigits width n, c.isDigit = true := by
  intro c hc
  rcases List.mem_append.1 hc with zero | digit
  · rw [List.eq_of_mem_replicate zero]
    rfl
  · exact isDigit_toDigits c digit

theorem paddedDigits_ne_nil : paddedDigits width n ≠ [] := by
  simp [paddedDigits, Nat.toDigits_ne_nil]

variable {width n}

theorem length_paddedDigits (hw : 0 < width) (h : n < 10 ^ width) :
    (paddedDigits width n).length = width := by
  have short := (Nat.length_toDigits_le_iff (by decide : 1 < 10) hw).2 h
  simp only [paddedDigits, List.length_append, List.length_replicate]
  omega

@[simp] theorem numberOf_paddedDigits : numberOf (paddedDigits width n) = n := by
  have value : numberOf (paddedDigits width n) = Nat.ofDigitChars 10 (paddedDigits width n) 0 :=
    Nat.ofDigitChars_eq_foldl.symm
  rw [value, paddedDigits, Nat.ofDigitChars_append, Nat.ofDigitChars_replicate_zero, Nat.mul_zero,
    Nat.ofDigitChars_ten_toDigits]

end Timestamp

end PageTest
