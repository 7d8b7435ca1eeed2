import PageTest.Proofs.Number.Nearest
import PageTest.Proofs.Json.Congruence

/-! What a check of two values that passes says about their numbers. They are compared by their nearest
doubles, so it says that these are equal; the numbers themselves are equal where they are doubles, as the
whole numbers of up to 53 bits are. -/

namespace PageTest

open Binary

namespace Json

/-- A value whose objects are in order and whose numbers have 64 bits. -/
structure Proper (j : Json) : Prop where
  tidy : j.Tidy
  numbers : ∀ n ∈ j.numbers, n.Proper

variable {a b : Json} {ms ns : List JsonNumber}

theorem sameNumbers_iff (hm : ∀ n ∈ ms, n.Proper) (hn : ∀ n ∈ ns, n.Proper) : SameNumbers ms ns ↔
    List.Forall₂ (fun m n => m.toDouble.value = n.toDouble.value ∧ m.isNegative = n.isNegative) ms ns := by
  unfold SameNumbers
  induction ms generalizing ns with
  | nil => cases ns <;> simp
  | cons m ms ih =>
    cases ns with
    | nil => simp
    | cons n ns =>
      obtain ⟨hm, hms⟩ := List.forall_mem_cons.1 hm
      obtain ⟨hn, hns⟩ := List.forall_mem_cons.1 hn
      rw [List.forall₂_cons, List.forall₂_cons, hm.same_iff hn, ih hms hns]

/-- Numbers that are doubles are equal if their doubles are. -/
theorem sameNumbers_iff_eq (hm : ∀ n ∈ ms, n.Proper ∧ BinaryFormat.double.Contains n.value)
    (hn : ∀ n ∈ ns, n.Proper ∧ BinaryFormat.double.Contains n.value) : SameNumbers ms ns ↔
    List.Forall₂ (fun m n => m.value = n.value ∧ m.isNegative = n.isNegative) ms ns := by
  unfold SameNumbers
  induction ms generalizing ns with
  | nil => cases ns <;> simp
  | cons m ms ih =>
    cases ns with
    | nil => simp
    | cons n ns =>
      obtain ⟨⟨hm, held⟩, hms⟩ := List.forall_mem_cons.1 hm
      obtain ⟨⟨hn, held'⟩, hns⟩ := List.forall_mem_cons.1 hn
      rw [List.forall₂_cons, List.forall₂_cons, hm.same_iff_of_contains hn held held', ih hms hns]

end Json

namespace Check

open Json

variable {a b : Json}

theorem is_pass (x y : Operand) (msg : String) : is x y msg = ⟨.pass, msg⟩ ↔ x.same y = true := by
  unfold is
  split
  next same => simp [same]
  next other => simp [other]

/-- A whole number, as a value. -/
def whole (i : Int) : Operand := .json (.number (.ofInt i))

/-- A check passes on two values if and only if they have one shape and their numbers, one by one, have the
same nearest double and the same sign. If the numbers are doubles, this is so if and only if they are
equal. Whole numbers of 64 bits that are different can pass only from `2 ^ 53` on. -/
theorem is_json_pass (ha : a.Proper) (hb : b.Proper) (msg : String) :
    (is (.json a) (.json b) msg = ⟨.pass, msg⟩ ↔ a.shape = b.shape ∧
      List.Forall₂ (fun m n => m.toDouble.value = n.toDouble.value ∧ m.isNegative = n.isNegative)
        a.numbers b.numbers) ∧
    (∀ n ∈ a.numbers ++ b.numbers, ∃ m k, n.toDouble = .finite n.isNegative m k ∧
      Nearest .double n.value n.isNegative m k) ∧
    ((∀ n ∈ a.numbers ++ b.numbers, BinaryFormat.double.Contains n.value) →
      (is (.json a) (.json b) msg = ⟨.pass, msg⟩ ↔ a.shape = b.shape ∧
        List.Forall₂ (fun m n => m.value = n.value ∧ m.isNegative = n.isNegative) a.numbers b.numbers)) ∧
    (∀ i j : Int, -2 ^ 63 ≤ i → i < 2 ^ 64 → -2 ^ 63 ≤ j → j < 2 ^ 64 → (whole i).same (whole j) = true →
      i = j ∨ (2 ^ 53 ≤ i.natAbs ∧ 2 ^ 53 ≤ j.natAbs)) ∧
    (∀ i j : Int, i.natAbs ≤ 2 ^ 53 → j.natAbs ≤ 2 ^ 53 →
      (whole i).same (whole j) = (Operand.integer i).same (.integer j)) := by
  have passes : is (.json a) (.json b) msg = ⟨.pass, msg⟩ ↔ a.shape = b.shape ∧
      SameNumbers a.numbers b.numbers := (is_pass _ _ _).trans (Json.same_iff ha.tidy hb.tidy)
  refine ⟨?_, ?_, ?_, ?_, ?_⟩
  · rw [passes, sameNumbers_iff ha.numbers hb.numbers]
  · intro n hn
    rcases List.mem_append.1 hn with mem | mem
    · exact (ha.numbers n mem).nearest
    · exact (hb.numbers n mem).nearest
  · intro held
    rw [passes, sameNumbers_iff_eq]
    · exact fun n mem => ⟨ha.numbers n mem, held n (List.mem_append_left _ mem)⟩
    · exact fun n mem => ⟨hb.numbers n mem, held n (List.mem_append_right _ mem)⟩
  · intro i j low high low' high' same
    by_contra! far
    rcases Nat.lt_or_ge i.natAbs (2 ^ 53) with small | large
    · exact far.1 (JsonNumber.eq_of_same_ofInt small low' high' same)
    · exact far.1 (JsonNumber.eq_of_same_ofInt (far.2 large) low high (JsonNumber.same_symm same)).symm
  · intro i j hi hj
    exact Bool.eq_iff_iff.2 ((JsonNumber.same_ofInt_iff hi hj).trans beq_iff_eq.symm)

/-- Two whole numbers of 54 bits that differ by one: their nearest double is the same. -/
theorem is_json_pass_adjacent : is (.json (.nat (2 ^ 53))) (.json (.nat (2 ^ 53 + 1))) "big" = ⟨.pass, "big"⟩ := by
  have proper : ∀ n < 2 ^ 64, (Json.nat n).Proper := by
    intro n h
    refine ⟨.number _, fun m hm => ?_⟩
    obtain rfl := List.mem_singleton.1 hm
    exact .natural h
  have doubles : (JsonNumber.natural (2 ^ 53)).toDouble = (JsonNumber.natural (2 ^ 53 + 1)).toDouble := by
    decide +kernel
  have first := (is_json_pass (proper (2 ^ 53) (by decide)) (proper (2 ^ 53 + 1) (by decide)) "big").1
  exact first.2 ⟨rfl, .cons ⟨congrArg Binary.value doubles, rfl⟩ .nil⟩

end Check

end PageTest
