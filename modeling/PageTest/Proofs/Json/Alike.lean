import PageTest.Proofs.Number.Values
import PageTest.Json.Basic
import PageTest.Check

/-! Comparing values leaf by leaf. A value is its shape, which is what is left with every number struck out,
and its numbers from left to right. Two values are the same if they have one shape and their numbers are
the same one by one; all laws of the comparison follow from those of its leaves. -/

namespace PageTest.Json

mutual

/-- The value with every number struck out. -/
def shape : Json → Json
  | .number _ => .number (.natural 0)
  | .list items => .list (shapes items)
  | .object fields => .object (fieldShapes fields)
  | j => j

def shapes : List Json → List Json
  | [] => []
  | j :: js => shape j :: shapes js

def fieldShapes : List (String × Json) → List (String × Json)
  | [] => []
  | (k, j) :: fs => (k, shape j) :: fieldShapes fs

end

mutual

/-- The numbers of a value, from left to right. -/
def numbers : Json → List JsonNumber
  | .number n => [n]
  | .list items => itemNumbers items
  | .object fields => fieldNumbers fields
  | _ => []

def itemNumbers : List Json → List JsonNumber
  | [] => []
  | j :: js => numbers j ++ itemNumbers js

def fieldNumbers : List (String × Json) → List JsonNumber
  | [] => []
  | (_, j) :: fs => numbers j ++ fieldNumbers fs

end

/-- The keys of an object, in order. -/
def keys (fields : List (String × Json)) : List String := fields.map (·.1)

/-- A value as it is kept: the keys of every object are in order, none of them twice. -/
inductive Tidy : Json → Prop
  | null : Tidy .null
  | bool (b : Bool) : Tidy (.bool b)
  | number (n : JsonNumber) : Tidy (.number n)
  | text (s : String) : Tidy (.text s)
  | list {items : List Json} (h : ∀ j ∈ items, Tidy j) : Tidy (.list items)
  | object {fields : List (String × Json)} (sorted : (keys fields).Pairwise (· < ·))
      (h : ∀ f ∈ fields, Tidy f.2) : Tidy (.object fields)

/-- The numbers of two values, compared one by one. -/
def SameNumbers (ms ns : List JsonNumber) : Prop := List.Forall₂ (fun m n => m.same n = true) ms ns

/-- One shape, and the same numbers. -/
def Alike (a b : Json) : Prop := a.shape = b.shape ∧ SameNumbers a.numbers b.numbers

variable {a b c : Json} {as bs items : List Json} {fs gs pre : List (String × Json)} {k : String}
  {ms ns ms' ns' : List JsonNumber}

section Numbers

mutual

theorem length_numbers : ∀ j : Json, j.shape.numbers.length = j.numbers.length
  | .null | .bool _ | .text _ | .unpaired | .number _ => rfl
  | .list items => length_itemNumbers items
  | .object fields => length_fieldNumbers fields

theorem length_itemNumbers : ∀ js : List Json, (itemNumbers (shapes js)).length = (itemNumbers js).length
  | [] => rfl
  | j :: js => by
    simp only [shapes, itemNumbers, List.length_append, length_numbers j, length_itemNumbers js]

theorem length_fieldNumbers : ∀ fs : List (String × Json),
    (fieldNumbers (fieldShapes fs)).length = (fieldNumbers fs).length
  | [] => rfl
  | (k, j) :: fs => by
    simp only [fieldShapes, fieldNumbers, List.length_append, length_numbers j, length_fieldNumbers fs]

end

/-- Values of one shape have equally many numbers. -/
theorem length_of_shape (h : a.shape = b.shape) : a.numbers.length = b.numbers.length := by
  rw [← length_numbers a, ← length_numbers b, h]

theorem sameNumbers_append (h : ms.length = ns.length) :
    SameNumbers (ms ++ ms') (ns ++ ns') ↔ SameNumbers ms ns ∧ SameNumbers ms' ns' := by
  unfold SameNumbers
  induction ms generalizing ns with
  | nil =>
    cases ns with
    | nil => simp
    | cons n ns => cases h
  | cons m ms ih =>
    cases ns with
    | nil => cases h
    | cons n ns =>
      rw [List.cons_append, List.cons_append, List.forall₂_cons, List.forall₂_cons,
        ih (Nat.succ.inj h), and_assoc]

/-- Two values are compared, and then what follows them. -/
theorem alike_and_iff {p : Prop} : Alike a b ∧ p ∧ SameNumbers ms ns ↔
    (a.shape = b.shape ∧ p) ∧ SameNumbers (a.numbers ++ ms) (b.numbers ++ ns) := by
  constructor
  · rintro ⟨⟨shape, nums⟩, hp, nums'⟩
    exact ⟨⟨shape, hp⟩, (sameNumbers_append (length_of_shape shape)).2 ⟨nums, nums'⟩⟩
  · rintro ⟨⟨shape, hp⟩, nums⟩
    obtain ⟨nums, nums'⟩ := (sameNumbers_append (length_of_shape shape)).1 nums
    exact ⟨⟨shape, nums⟩, hp, nums'⟩

theorem SameNumbers.refl (ns : List JsonNumber) : SameNumbers ns ns :=
  List.forall₂_same.2 fun n _ => Binary.same_refl n.toDouble

theorem SameNumbers.symm (h : SameNumbers ms ns) : SameNumbers ns ms := by
  induction h with
  | nil => exact .nil
  | cons same _ ih => exact .cons (Binary.same_symm same) ih

theorem SameNumbers.trans {ls : List JsonNumber} (h : SameNumbers ls ms) (h' : SameNumbers ms ns) :
    SameNumbers ls ns := by
  induction h generalizing ns with
  | nil => exact h'
  | cons same _ ih =>
    cases h' with
    | cons same' rest => exact .cons (Binary.same_trans same same') (ih rest)

end Numbers

section Keys

theorem keys_fieldShapes : ∀ fs : List (String × Json), keys (fieldShapes fs) = keys fs
  | [] => rfl
  | (k, _) :: fs => congrArg (k :: ·) (keys_fieldShapes fs)

theorem mem_keys_of_lookup {v : Json} (h : lookup k gs = some v) : k ∈ keys gs := by
  obtain ⟨f, found, -⟩ := Option.map_eq_some_iff.1 h
  have eq : f.1 = k := by simpa using List.find?_some found
  exact eq ▸ List.mem_map_of_mem (List.mem_of_find?_eq_some found)

theorem keys_subset_of_sameFields (h : sameFields fs gs = true) : keys fs ⊆ keys gs := by
  induction fs with
  | nil => exact List.nil_subset _
  | cons f fs ih =>
    obtain ⟨k, v⟩ := f
    rw [sameFields, Bool.and_eq_true] at h
    refine List.cons_subset.2 ⟨?_, ih h.2⟩
    cases found : lookup k gs with
    | none => rw [found] at h; cases h.1
    | some v => exact mem_keys_of_lookup found

theorem nodup_of_sorted {ks : List String} (h : ks.Pairwise (· < ·)) : ks.Nodup :=
  h.imp fun lt => String.ne_of_lt lt

/-- Sorted keys that are all among as many others are these others: neither list has a key twice. -/
theorem keys_eq {ks ls : List String} (hk : ks.Pairwise (· < ·)) (hl : ls.Pairwise (· < ·)) (sub : ks ⊆ ls)
    (length : ks.length = ls.length) : ks = ls := by
  have perm : ks.Perm ls :=
    (List.subperm_of_subset (nodup_of_sorted hk) sub).perm_of_length_le length.ge
  exact perm.eq_of_pairwise (fun a _ _ _ lt lt' => absurd (String.lt_trans lt lt') (String.lt_irrefl a)) hk hl

/-- Looking past fields of other keys. -/
theorem lookup_append {v : Json} (h : k ∉ keys pre) : lookup k (pre ++ (k, v) :: gs) = some v := by
  induction pre with
  | nil => simp [lookup]
  | cons f pre ih =>
    obtain ⟨other, rest⟩ := not_or.1 (fun mem => h (List.mem_cons.2 mem))
    have ne : (f.1 == k) = false := by simpa using fun eq : f.1 = k => other eq.symm
    rw [← ih rest, lookup, lookup, List.cons_append, List.find?_cons, ne]

end Keys

mutual

theorem same_iff : ∀ {a b : Json}, a.Tidy → b.Tidy → (a.same b = true ↔ a.Alike b)
  | .null, b, _, hb => by cases hb <;> simp [same, Alike, shape, numbers, SameNumbers]
  | .bool x, b, _, hb => by cases hb <;> simp [same, Alike, shape, numbers, SameNumbers]
  | .number m, b, _, hb => by cases hb <;> simp [same, Alike, shape, numbers, SameNumbers]
  | .text s, b, _, hb => by cases hb <;> simp [same, Alike, shape, numbers, SameNumbers]
  | .list as, b, .list ha, hb => by
    cases hb with
    | @list bs hb =>
      simp only [same, Alike, shape, numbers, Json.list.injEq]
      exact sameItems_iff ha hb
    | null | bool | number | text | object => simp [same, Alike, shape]
  | .object fs, b, .object sorted ha, hb => by
    cases hb with
    | @object gs sorted' hb =>
      simp only [same, Alike, shape, numbers, Json.object.injEq, Bool.and_eq_true, beq_iff_eq]
      have fields := sameFields_iff [] ha hb (nodup_of_sorted sorted')
      constructor
      · rintro ⟨length, h⟩
        have eq := keys_eq sorted sorted' (keys_subset_of_sameFields h) (by simpa [keys] using length)
        exact (fields eq).1 h
      · intro h
        have eq : keys fs = keys gs := by rw [← keys_fieldShapes fs, h.1, keys_fieldShapes]
        exact ⟨by simpa [keys] using congrArg List.length eq, (fields eq).2 h⟩
    | null | bool | number | text | list => simp [same, Alike, shape]

theorem sameItems_iff : ∀ {as bs : List Json}, (∀ j ∈ as, j.Tidy) → (∀ j ∈ bs, j.Tidy) →
    (sameItems as bs = true ↔ shapes as = shapes bs ∧ SameNumbers (itemNumbers as) (itemNumbers bs))
  | [], [], _, _ => by simp [sameItems, itemNumbers, SameNumbers]
  | [], b :: bs, _, _ => by simp [sameItems, shapes]
  | a :: as, [], _, _ => by simp [sameItems, shapes]
  | a :: as, b :: bs, ha, hb => by
    have first := same_iff (ha a List.mem_cons_self) (hb b List.mem_cons_self)
    have rest := sameItems_iff (fun j hj => ha j (List.mem_cons_of_mem a hj))
      (fun j hj => hb j (List.mem_cons_of_mem b hj))
    simp only [sameItems, Bool.and_eq_true, first, rest, shapes, itemNumbers, List.cons.injEq]
    exact alike_and_iff

/-- Objects with the same keys; `pre` are the fields that are compared already. -/
theorem sameFields_iff : ∀ (pre : List (String × Json)) {fs gs : List (String × Json)},
    (∀ f ∈ fs, f.2.Tidy) → (∀ f ∈ gs, f.2.Tidy) →
    (keys (pre ++ gs)).Nodup → keys fs = keys gs →
    (sameFields fs (pre ++ gs) = true ↔
      fieldShapes fs = fieldShapes gs ∧ SameNumbers (fieldNumbers fs) (fieldNumbers gs))
  | pre, [], [], _, _, _, _ => by simp [sameFields, fieldNumbers, SameNumbers]
  | pre, [], g :: gs, _, _, _, eq => by cases eq
  | pre, f :: fs, [], _, _, _, eq => by cases eq
  | pre, (k, a) :: fs, (l, b) :: gs, ha, hb, nodup, eq => by
    obtain ⟨same, others⟩ := List.cons.inj (show k :: keys fs = l :: keys gs from eq)
    subst same
    have first := same_iff (ha (k, a) List.mem_cons_self) (hb (k, b) List.mem_cons_self)
    have fresh : k ∉ keys pre := by
      intro mem
      rw [keys, List.map_append, List.nodup_append] at nodup
      exact nodup.2.2 k mem k List.mem_cons_self rfl
    have rest := sameFields_iff (pre ++ [(k, b)]) (fun f hf => ha f (List.mem_cons_of_mem _ hf))
      (fun f hf => hb f (List.mem_cons_of_mem _ hf)) (by rwa [List.append_assoc]) others
    rw [List.append_assoc, List.singleton_append] at rest
    simp only [sameFields, lookup_append fresh, Bool.and_eq_true, first, rest, fieldShapes, fieldNumbers,
      List.cons.injEq, Prod.mk.injEq, true_and]
    exact alike_and_iff

end

end PageTest.Json
