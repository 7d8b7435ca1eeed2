import Mathlib.Data.List.TakeWhile
import PageTest.Number.Text
import PageTest.Proofs.Number.Digits
import PageTest.Proofs.Number.Shortest

/-! The text of a number says which number it is. A decimal is read back from its text, and different
numbers of a format have different shortest decimals. -/

namespace PageTest

open Json (digitsValue)

/-- Digits only, perhaps none. -/
def AllDigits (ds : List Char) : Prop := ∀ c ∈ ds, c.isDigit = true

/-- What a number is written with. -/
def isNumeral (c : Char) : Bool := c.isDigit || c == '.' || c == 'e' || c == '-' || c == '+'

/-- The text of a number without its sign. If it is pointed it is more than digits. -/
structure Unsigned (pointed : Bool) (cs : List Char) : Prop where
  head : ∃ d t, cs = d :: t ∧ d.isDigit = true
  numerals : ∀ c ∈ cs, isNumeral c = true
  mark : pointed = true → ∃ c ∈ cs, c.isDigit = false

variable {ds es rest : List Char} {c : Char} {pointed : Bool}

section Digits

theorem allDigits_toDigits (n : Nat) : AllDigits (Nat.toDigits 10 n) := isDigit_toDigits

theorem allDigits_zeros (k : Nat) : AllDigits (List.replicate k '0') := by
  intro c hc
  rw [List.eq_of_mem_replicate hc]
  rfl

theorem AllDigits.append (h : AllDigits ds) (h' : AllDigits es) : AllDigits (ds ++ es) :=
  List.forall_mem_append.2 ⟨h, h'⟩

theorem AllDigits.numerals (h : AllDigits ds) : ∀ c ∈ ds, isNumeral c = true := by
  intro c hc
  simp [isNumeral, h c hc]

theorem ne_of_isDigit (h : c.isDigit = true) : c ≠ '.' ∧ c ≠ 'e' ∧ c ≠ '-' := by
  refine ⟨?_, ?_, ?_⟩ <;> rintro rfl <;> exact absurd h (by decide)

theorem toDigits_inj {m n : Nat} (h : Nat.toDigits 10 m = Nat.toDigits 10 n) : m = n := by
  rw [← Json.digitsValue_toDigits m, h, Json.digitsValue_toDigits]

theorem digitsValue_append_zeros (ds : List Char) (k : Nat) :
    digitsValue (ds ++ List.replicate k '0') = digitsValue ds * 10 ^ k := by
  rw [Json.digitsValue_eq, Json.digitsValue_eq, Nat.ofDigitChars_append, Nat.ofDigitChars_replicate_zero]
  ring

theorem digitsValue_zeros_append (ds : List Char) (k : Nat) :
    digitsValue (List.replicate k '0' ++ ds) = digitsValue ds := by
  rw [Json.digitsValue_eq, Json.digitsValue_eq, Nat.ofDigitChars_append, Nat.ofDigitChars_replicate_zero,
    Nat.mul_zero]

/-- Some digits, and what a number is written with. -/
theorem unsigned_append (full : ds ≠ []) (h : AllDigits ds) (numerals : ∀ c ∈ rest, isNumeral c = true)
    (mark : pointed = true → ∃ c ∈ rest, c.isDigit = false) : Unsigned pointed (ds ++ rest) where
  head := by
    obtain ⟨d, t, rfl⟩ := List.exists_cons_of_ne_nil full
    exact ⟨d, t ++ rest, rfl, h d List.mem_cons_self⟩
  numerals := List.forall_mem_append.2 ⟨h.numerals, numerals⟩
  mark yes := by
    obtain ⟨c, mem, other⟩ := mark yes
    exact ⟨c, List.mem_append_right _ mem, other⟩

theorem unsigned_point (full : ds ≠ []) (h : AllDigits ds) (h' : AllDigits es) :
    Unsigned pointed (ds ++ '.' :: es) := by
  refine unsigned_append full h (List.forall_mem_cons.2 ⟨rfl, h'.numerals⟩) fun _ => ?_
  exact ⟨'.', List.mem_cons_self, rfl⟩

theorem unsigned_toDigits (n : Nat) : Unsigned false (Nat.toDigits 10 n) := by
  rw [← List.append_nil (Nat.toDigits 10 n)]
  exact unsigned_append Nat.toDigits_ne_nil (allDigits_toDigits n) nofun nofun

end Digits

namespace Decimal

/-- What digits with a point among them are worth. -/
def mantissa (cs : List Char) : ℚ :=
  let whole := cs.takeWhile (· != '.')
  let fraction := (cs.dropWhile (· != '.')).tail
  digitsValue (whole ++ fraction) / 10 ^ fraction.length

/-- The power of ten that an exponent stands for. -/
def exponent : List Char → Int
  | 'e' :: '-' :: ds => -digitsValue ds
  | 'e' :: '+' :: ds => digitsValue ds
  | _ => 0

/-- What the text of a decimal is worth. -/
def worth (cs : List Char) : ℚ :=
  mantissa (cs.takeWhile (· != 'e')) * 10 ^ exponent (cs.dropWhile (· != 'e'))

/-- A power of ten with its sign. -/
def powerText (e : Int) : List Char := (if e < 0 then '-' else '+') :: Nat.toDigits 10 e.natAbs

section Reading

theorem takeWhile_before (h : ∀ d ∈ ds, d ≠ c) : (ds ++ c :: rest).takeWhile (· != c) = ds := by
  rw [List.takeWhile_append_of_pos fun d hd => bne_iff_ne.2 (h d hd)]
  simp

theorem dropWhile_before (h : ∀ d ∈ ds, d ≠ c) : (ds ++ c :: rest).dropWhile (· != c) = c :: rest := by
  rw [List.dropWhile_append_of_pos fun d hd => bne_iff_ne.2 (h d hd)]
  simp

theorem mantissa_whole (h : AllDigits ds) : mantissa ds = digitsValue ds := by
  have stays : ∀ c ∈ ds, (c != '.') = true := fun c hc => bne_iff_ne.2 (ne_of_isDigit (h c hc)).1
  rw [mantissa, List.takeWhile_eq_self_iff.2 stays, List.dropWhile_eq_nil_iff.2 stays]
  simp

theorem mantissa_point (h : AllDigits ds) :
    mantissa (ds ++ '.' :: es) = digitsValue (ds ++ es) / 10 ^ es.length := by
  have before : ∀ c ∈ ds, c ≠ '.' := fun c hc => (ne_of_isDigit (h c hc)).1
  rw [mantissa, takeWhile_before before, dropWhile_before before, List.tail_cons]

/-- A text without exponent. -/
theorem worth_plain (h : ∀ c ∈ ds, c ≠ 'e') : worth ds = mantissa ds := by
  have stays : ∀ c ∈ ds, (c != 'e') = true := fun c hc => bne_iff_ne.2 (h c hc)
  rw [worth, List.takeWhile_eq_self_iff.2 stays, List.dropWhile_eq_nil_iff.2 stays]
  simp [exponent]

theorem worth_whole (h : AllDigits ds) : worth ds = digitsValue ds := by
  rw [worth_plain fun c hc => (ne_of_isDigit (h c hc)).2.1, mantissa_whole h]

theorem worth_point (h : AllDigits ds) (h' : AllDigits es) :
    worth (ds ++ '.' :: es) = digitsValue (ds ++ es) / 10 ^ es.length := by
  rw [worth_plain, mantissa_point h]
  refine List.forall_mem_append.2 ⟨fun c hc => (ne_of_isDigit (h c hc)).2.1, ?_⟩
  exact List.forall_mem_cons.2 ⟨by decide, fun c hc => (ne_of_isDigit (h' c hc)).2.1⟩

theorem exponent_powerText (e : Int) : exponent ('e' :: powerText e) = e := by
  unfold powerText
  split <;> simp only [exponent, Json.digitsValue_toDigits] <;> omega

theorem worth_powerText (h : ∀ c ∈ ds, c ≠ 'e') (e : Int) :
    worth (ds ++ 'e' :: powerText e) = mantissa ds * 10 ^ e := by
  rw [worth, takeWhile_before h, dropWhile_before h, exponent_powerText]

end Reading

section Writing

/-- The point stands in front of all digits, among them, or after the last. -/
theorem withPoint_cases (ds : List Char) (point : Int) (pointed : Bool) :
    (∃ z : Nat, point = -z ∧
      (withPoint ds point pointed).toList = List.replicate 1 '0' ++ '.' :: (List.replicate z '0' ++ ds)) ∨
    (∃ p : Nat, point = p ∧ 0 < p ∧ p < ds.length ∧
      (withPoint ds point pointed).toList = ds.take p ++ '.' :: ds.drop p) ∨
    (∃ z : Nat, point = ds.length + z ∧ (withPoint ds point pointed).toList =
      (ds ++ List.replicate z '0') ++ if pointed then '.' :: List.replicate 1 '0' else []) := by
  unfold withPoint zeros
  split
  next left =>
    obtain ⟨z, rfl⟩ := Int.exists_eq_neg_ofNat left
    exact .inl ⟨z, rfl, by simp⟩
  next right =>
    split
    next inside =>
      obtain ⟨p, rfl⟩ := Int.eq_ofNat_of_zero_le (not_le.1 right).le
      exact .inr (.inl ⟨p, rfl, by omega, by omega, by simp⟩)
    next outside =>
      obtain ⟨z, shift⟩ := Int.eq_ofNat_of_zero_le (sub_nonneg.2 (not_lt.1 outside))
      refine .inr (.inr ⟨z, by omega, ?_⟩)
      cases pointed <;> simp [shift]

theorem toList_withExponent (d : Char) (rest : List Char) (point : Int) :
    (withExponent (d :: rest) point).toList =
      [d] ++ (if rest = [] then [] else '.' :: rest) ++ 'e' :: powerText (point - 1) := by
  unfold withExponent powerText
  cases rest with
  | nil => dsimp only; split <;> simp [Nat.repr_eq_ofList_toDigits]
  | cons d' rest => dsimp only; split <;> simp [Nat.repr_eq_ofList_toDigits]

theorem worth_withPoint (h : AllDigits ds) (point : Int) (pointed : Bool) :
    worth (withPoint ds point pointed).toList = digitsValue ds * 10 ^ (point - ds.length) := by
  rcases withPoint_cases ds point pointed with ⟨z, rfl, text⟩ | ⟨p, rfl, -, inside, text⟩ | ⟨z, rfl, text⟩
  · rw [text, worth_point (allDigits_zeros 1) ((allDigits_zeros z).append h), digitsValue_zeros_append,
      digitsValue_zeros_append, List.length_append, List.length_replicate, ← zpow_natCast, div_eq_mul_inv,
      ← zpow_neg]
    congr 2
    push_cast
    ring
  · rw [text, worth_point (fun c hc => h c (List.mem_of_mem_take hc)) (fun c hc => h c (List.mem_of_mem_drop hc)),
      List.take_append_drop, List.length_drop, ← zpow_natCast, div_eq_mul_inv, ← zpow_neg]
    congr 2
    omega
  · have digits := h.append (allDigits_zeros z)
    rw [text, add_sub_cancel_left, zpow_natCast]
    cases pointed with
    | false =>
      rw [if_neg Bool.false_ne_true, List.append_nil, worth_whole digits, digitsValue_append_zeros]
      push_cast
      rfl
    | true =>
      rw [if_pos rfl, worth_point digits (allDigits_zeros 1), digitsValue_append_zeros, digitsValue_append_zeros]
      push_cast
      simp

theorem worth_withExponent (full : ds ≠ []) (h : AllDigits ds) (point : Int) :
    worth (withExponent ds point).toList = digitsValue ds * 10 ^ (point - ds.length) := by
  obtain ⟨d, rest, rfl⟩ := List.exists_cons_of_ne_nil full
  obtain ⟨first, later⟩ := List.forall_mem_cons.1 h
  have one : AllDigits [d] := List.forall_mem_singleton.2 first
  have lead : mantissa ([d] ++ if rest = [] then [] else '.' :: rest) =
      digitsValue (d :: rest) / 10 ^ rest.length := by
    split
    next none =>
      subst none
      simpa using mantissa_whole one
    next => exact mantissa_point one
  have plain : ∀ c ∈ [d] ++ (if rest = [] then [] else '.' :: rest), c ≠ 'e' := by
    refine List.forall_mem_cons.2 ⟨(ne_of_isDigit first).2.1, ?_⟩
    split
    · nofun
    · exact List.forall_mem_cons.2 ⟨by decide, fun c hc => (ne_of_isDigit (later c hc)).2.1⟩
  rw [toList_withExponent, worth_powerText plain, lead, div_mul_eq_mul_div, mul_div_assoc, ← zpow_natCast,
    ← zpow_sub₀ (by norm_num)]
  congr 2
  push_cast [List.length_cons]
  ring

/-- The text of a decimal says what the decimal is worth. -/
theorem worth_text (style : NumberStyle) (d : Decimal) : worth (d.text style).toList = d.value := by
  have digits := allDigits_toDigits d.digits
  have power : (Nat.toDigits 10 d.digits).length + d.power - (Nat.toDigits 10 d.digits).length = d.power := by ring
  unfold text
  dsimp only
  split
  next zero =>
    have none : d.value = 0 := by simp [value, zero]
    rw [none]
    split
    · rw [show "0.0".toList = List.replicate 1 '0' ++ '.' :: List.replicate 1 '0' from rfl,
        worth_point (allDigits_zeros 1) (allDigits_zeros 1)]
      norm_num [digitsValue, Json.digitValue]
    · rw [show "0".toList = List.replicate 1 '0' from rfl, worth_whole (allDigits_zeros 1)]
      norm_num [digitsValue, Json.digitValue]
  next =>
    split
    · rw [worth_withPoint digits, Json.digitsValue_toDigits, power, value]
    · rw [worth_withExponent Nat.toDigits_ne_nil digits, Json.digitsValue_toDigits, power, value]

theorem unsigned_withPoint (full : ds ≠ []) (h : AllDigits ds) (point : Int) (pointed : Bool) :
    Unsigned pointed (withPoint ds point pointed).toList := by
  rcases withPoint_cases ds point pointed with ⟨z, -, text⟩ | ⟨p, -, pos, -, text⟩ | ⟨z, -, text⟩ <;> rw [text]
  · exact unsigned_point (by simp) (allDigits_zeros 1) ((allDigits_zeros z).append h)
  · have lead : ds.take p ≠ [] := by simp [full, pos.ne']
    exact unsigned_point lead (fun c hc => h c (List.mem_of_mem_take hc)) fun c hc => h c (List.mem_of_mem_drop hc)
  · have digits := h.append (allDigits_zeros z)
    refine unsigned_append (by simp [full]) digits ?_ ?_
    · cases pointed with
      | false => nofun
      | true => simp [isNumeral]
    · rintro rfl
      exact ⟨'.', List.mem_cons_self, rfl⟩

theorem unsigned_withExponent (full : ds ≠ []) (h : AllDigits ds) (point : Int) :
    Unsigned pointed (withExponent ds point).toList := by
  obtain ⟨d, rest, rfl⟩ := List.exists_cons_of_ne_nil full
  obtain ⟨first, later⟩ := List.forall_mem_cons.1 h
  rw [toList_withExponent, List.append_assoc]
  have power : ∀ c ∈ powerText (point - 1), isNumeral c = true := by
    refine List.forall_mem_cons.2 ⟨?_, (allDigits_toDigits _).numerals⟩
    split <;> rfl
  have marked : ∀ c ∈ 'e' :: powerText (point - 1), isNumeral c = true := List.forall_mem_cons.2 ⟨rfl, power⟩
  refine unsigned_append (List.cons_ne_nil _ _) (List.forall_mem_singleton.2 first) ?_ ?_
  · refine List.forall_mem_append.2 ⟨?_, marked⟩
    split
    · nofun
    · exact List.forall_mem_cons.2 ⟨rfl, AllDigits.numerals later⟩
  · intro _
    exact ⟨'e', List.mem_append_right _ List.mem_cons_self, rfl⟩

theorem unsigned_text (style : NumberStyle) (d : Decimal) : Unsigned style.pointed (d.text style).toList := by
  have digits := allDigits_toDigits d.digits
  unfold text
  dsimp only
  split
  · cases style.pointed with
    | false => exact unsigned_toDigits 0
    | true => exact unsigned_point (List.cons_ne_nil '0' []) (allDigits_zeros 1) (allDigits_zeros 1)
  · split
    · exact unsigned_withPoint Nat.toDigits_ne_nil digits _ _
    · exact unsigned_withExponent Nat.toDigits_ne_nil digits _

end Writing

end Decimal

/-- A sign and an unsigned number. -/
def signedText (negative : Bool) (cs : List Char) : List Char := if negative then '-' :: cs else cs

theorem signedText_inj {p q s t : Bool} {cs ds : List Char} (h : Unsigned p cs) (h' : Unsigned q ds)
    (eq : signedText s cs = signedText t ds) : s = t ∧ cs = ds := by
  obtain ⟨d, cs, rfl, digit⟩ := h.head
  obtain ⟨d', ds, rfl, digit'⟩ := h'.head
  have unsigned := (ne_of_isDigit digit).2.2
  have unsigned' := (ne_of_isDigit digit').2.2
  cases s <;> cases t
  · exact ⟨rfl, eq⟩
  · exact absurd (List.cons.inj eq).1 unsigned
  · exact absurd (List.cons.inj eq).1.symm unsigned'
  · exact ⟨rfl, (List.cons.inj eq).2⟩

theorem Unsigned.signed {p s : Bool} {cs : List Char} (h : Unsigned p cs) :
    signedText s cs ≠ [] ∧ ∀ c ∈ signedText s cs, isNumeral c = true := by
  obtain ⟨d, t, rfl, -⟩ := h.head
  cases s with
  | false => exact ⟨List.cons_ne_nil _ _, h.numerals⟩
  | true => exact ⟨List.cons_ne_nil _ _, List.forall_mem_cons.2 ⟨rfl, h.numerals⟩⟩

namespace Binary

variable {f : BinaryFormat} {x y : Binary} {s : Bool} {m k : Nat}

/-- A number that the format has. -/
def Fits (f : BinaryFormat) : Binary → Prop
  | .finite _ m k => Written f m k
  | _ => True

theorem fits_ofBits (f : BinaryFormat) (bits : Nat) : (ofBits f bits).Fits f := by
  cases eq : ofBits f bits with
  | nan | infinite => trivial
  | finite s m k => exact written_ofBits eq

theorem toList_text_finite (style : NumberStyle) : ((finite s m k).text style f).toList =
    signedText s ((shortest f style.tie m k).text style).toList := by
  cases s <;> simp [text, signedText]

/-- Only a number that is not finite is written with letters. -/
theorem text_letters (style : NumberStyle) (p : Bool) {cs : List Char} (h : Unsigned p cs) (s : Bool) :
    signedText s cs ≠ (nan.text style f).toList ∧ ∀ t, signedText s cs ≠ ((infinite t).text style f).toList := by
  obtain ⟨d, cs, rfl, digit⟩ := h.head
  have letter : d ≠ 'N' ∧ d ≠ 'i' ∧ d ≠ '-' := by
    refine ⟨?_, ?_, ?_⟩ <;> rintro rfl <;> exact absurd digit (by decide)
  cases s
  · refine ⟨by simp [signedText, text, letter], fun t => ?_⟩
    cases t <;> simp [signedText, text, letter]
  · refine ⟨by simp [signedText, text], fun t => ?_⟩
    cases t <;> simp [signedText, text, letter]

/-- Different numbers of a format have different texts. -/
theorem eq_of_text (hx : x.Fits f) (hy : y.Fits f) (narrow : f.fraction ≤ 52) {style : NumberStyle}
    (eq : x.text style f = y.text style f) : x = y := by
  have eq := congrArg String.toList eq
  cases x with
  | nan =>
    cases y with
    | nan => rfl
    | infinite t => cases t <;> simp [text] at eq
    | finite t n l =>
      rw [toList_text_finite] at eq
      exact absurd eq.symm (text_letters style _ (Decimal.unsigned_text ..) t).1
  | infinite s =>
    cases y with
    | nan => cases s <;> simp [text] at eq
    | infinite t => cases s <;> cases t <;> simp [text] at eq ⊢
    | finite t n l =>
      rw [toList_text_finite] at eq
      exact absurd eq.symm ((text_letters style _ (Decimal.unsigned_text ..) t).2 s)
  | finite s m k =>
    cases y with
    | nan =>
      rw [toList_text_finite] at eq
      exact absurd eq (text_letters style _ (Decimal.unsigned_text ..) s).1
    | infinite t =>
      rw [toList_text_finite] at eq
      exact absurd eq ((text_letters style _ (Decimal.unsigned_text ..) s).2 t)
    | finite t n l =>
      rw [toList_text_finite, toList_text_finite] at eq
      obtain ⟨rfl, decimals⟩ := signedText_inj (Decimal.unsigned_text ..) (Decimal.unsigned_text ..) eq
      have worth := congrArg Decimal.worth decimals
      rw [Decimal.worth_text, Decimal.worth_text] at worth
      obtain ⟨rfl, rfl⟩ := Written.eq_of_shortest hx hy narrow worth
      rfl

end Binary

end PageTest
