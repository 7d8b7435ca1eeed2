import PageTest.Proofs.Json.Alike

/-! Being the same value is an equivalence, and a part of a value can be put in place of another that is the
same. -/

namespace PageTest

namespace Json

/-- A place in a value: the items or fields around it, from the outside in. -/
inductive Spot where
  | here
  | item (before : List Json) (inside : Spot) (after : List Json)
  | field (before : List (String × Json)) (key : String) (inside : Spot) (after : List (String × Json))

/-- The value with this part at the place. -/
def Spot.put : Spot → Json → Json
  | .here, part => part
  | .item before inside after, part => .list (before ++ inside.put part :: after)
  | .field before key inside after, part => .object (before ++ (key, inside.put part) :: after)

variable {a b c : Json} {as bs : List Json} {fs gs : List (String × Json)} {k : String} {place : Spot}

section Laws

theorem Alike.refl (a : Json) : a.Alike a := ⟨rfl, .refl _⟩

theorem Alike.symm (h : a.Alike b) : b.Alike a := ⟨h.1.symm, h.2.symm⟩

theorem Alike.trans (h : a.Alike b) (h' : b.Alike c) : a.Alike c := ⟨h.1.trans h'.1, h.2.trans h'.2⟩

end Laws

section Place

@[simp] theorem shapes_append : shapes (as ++ bs) = shapes as ++ shapes bs := by
  induction as with
  | nil => rfl
  | cons a as ih => rw [List.cons_append, shapes, ih, shapes, List.cons_append]

@[simp] theorem fieldShapes_append : fieldShapes (fs ++ gs) = fieldShapes fs ++ fieldShapes gs := by
  induction fs with
  | nil => rfl
  | cons f fs ih => rw [List.cons_append, fieldShapes, ih, fieldShapes, List.cons_append]

@[simp] theorem itemNumbers_append : itemNumbers (as ++ bs) = itemNumbers as ++ itemNumbers bs := by
  induction as with
  | nil => rfl
  | cons a as ih => rw [List.cons_append, itemNumbers, ih, itemNumbers, List.append_assoc]

@[simp] theorem fieldNumbers_append : fieldNumbers (fs ++ gs) = fieldNumbers fs ++ fieldNumbers gs := by
  induction fs with
  | nil => rfl
  | cons f fs ih => rw [List.cons_append, fieldNumbers, ih, fieldNumbers, List.append_assoc]

/-- Parts between the same items and fields make values alike. -/
theorem Alike.put (h : a.Alike b) (place : Spot) : (place.put a).Alike (place.put b) := by
  induction place with
  | here => exact h
  | item before inside after ih =>
    obtain ⟨shape, nums⟩ := ih
    refine ⟨?_, ?_⟩
    · simp only [Spot.put, Json.shape, shapes_append, shapes, shape]
    · simp only [Spot.put, numbers, itemNumbers_append, itemNumbers]
      rw [sameNumbers_append rfl, sameNumbers_append (length_of_shape shape)]
      exact ⟨.refl _, nums, .refl _⟩
  | field before key inside after ih =>
    obtain ⟨shape, nums⟩ := ih
    refine ⟨?_, ?_⟩
    · simp only [Spot.put, Json.shape, fieldShapes_append, fieldShapes, shape]
    · simp only [Spot.put, numbers, fieldNumbers_append, fieldNumbers]
      rw [sameNumbers_append rfl, sameNumbers_append (length_of_shape shape)]
      exact ⟨.refl _, nums, .refl _⟩

theorem Tidy.part (h : (place.put a).Tidy) : a.Tidy := by
  induction place with
  | here => exact h
  | item before inside after ih =>
    cases h with
    | list items => exact ih (items _ (List.mem_append_right _ List.mem_cons_self))
  | field before key inside after ih =>
    cases h with
    | object _ fields => exact ih (fields _ (List.mem_append_right _ List.mem_cons_self))

/-- What stays in place stays tidy. -/
theorem Tidy.put (h : (place.put a).Tidy) (hb : b.Tidy) : (place.put b).Tidy := by
  induction place with
  | here => exact hb
  | item before inside after ih =>
    cases h with
    | list items =>
      refine .list fun j hj => ?_
      rcases List.mem_append.1 hj with mem | mem
      · exact items j (List.mem_append_left _ mem)
      rcases List.mem_cons.1 mem with rfl | mem
      · exact ih (items _ (List.mem_append_right _ List.mem_cons_self))
      · exact items j (List.mem_append_right _ (List.mem_cons_of_mem _ mem))
  | field before key inside after ih =>
    cases h with
    | object sorted fields =>
      refine .object (by simpa [keys] using sorted) fun f hf => ?_
      rcases List.mem_append.1 hf with mem | mem
      · exact fields f (List.mem_append_left _ mem)
      rcases List.mem_cons.1 mem with rfl | mem
      · exact ih (fields _ (List.mem_append_right _ List.mem_cons_self))
      · exact fields f (List.mem_append_right _ (List.mem_cons_of_mem _ mem))

end Place

section Building

theorem mem_insertField {v : Json} {f : String × Json} (h : f ∈ insertField k v fs) : f = (k, v) ∨ f ∈ fs := by
  induction fs with
  | nil => exact .inl (List.mem_singleton.1 h)
  | cons g fs ih =>
    obtain ⟨l, w⟩ := g
    rw [insertField] at h
    split at h
    · exact List.mem_cons.1 h
    split at h
    · rcases List.mem_cons.1 h with eq | mem
      · exact .inl eq
      · exact .inr (List.mem_cons_of_mem _ mem)
    · rcases List.mem_cons.1 h with rfl | mem
      · exact .inr List.mem_cons_self
      · exact (ih mem).imp_right (List.mem_cons_of_mem _)

theorem sorted_insertField {v : Json} (h : (keys fs).Pairwise (· < ·)) :
    (keys (insertField k v fs)).Pairwise (· < ·) := by
  induction fs with
  | nil => exact List.pairwise_singleton ..
  | cons f fs ih =>
    obtain ⟨l, w⟩ := f
    obtain ⟨least, sorted⟩ := List.pairwise_cons.1 h
    rw [insertField]
    split
    next below =>
      refine List.pairwise_cons.2 ⟨fun key mem => ?_, h⟩
      rcases List.mem_cons.1 mem with rfl | mem
      · exact below
      · exact String.lt_trans below (least key mem)
    next notBelow =>
      split
      next equal =>
        subst equal
        exact List.pairwise_cons.2 ⟨least, sorted⟩
      next other =>
        refine List.pairwise_cons.2 ⟨fun key mem => ?_, ih sorted⟩
        obtain ⟨f, hf, rfl⟩ := List.mem_map.1 mem
        rcases mem_insertField hf with rfl | old
        · exact Std.lt_of_le_of_ne (String.not_lt.1 notBelow) (Ne.symm other)
        · exact least f.1 (List.mem_map_of_mem old)

/-- An object that is built from its fields is kept in order. -/
theorem tidy_ofPairs (h : ∀ f ∈ fs, f.2.Tidy) : (ofPairs fs).Tidy := by
  have built : ∀ (fs gs : List (String × Json)), (∀ f ∈ fs, f.2.Tidy) → (Json.object gs).Tidy →
      (Json.object (fs.foldl (fun gs f => insertField f.1 f.2 gs) gs)).Tidy := by
    intro fs
    induction fs with
    | nil => exact fun _ _ tidy => tidy
    | cons f fs ih =>
      intro gs hf tidy
      cases tidy with
      | object sorted fields =>
        refine ih _ (fun g hg => hf g (List.mem_cons_of_mem _ hg)) (.object (sorted_insertField sorted) ?_)
        intro g hg
        rcases mem_insertField hg with rfl | old
        · exact hf f List.mem_cons_self
        · exact fields g old
  exact built fs [] h (.object .nil nofun)

end Building

end Json

namespace Operand

open Json Binary

/-- A JSON value has its keys in order; of other operands nothing is asked. -/
def Tidy : Operand → Prop
  | .json j => j.Tidy
  | _ => True

variable {x y z : Operand}

theorem same_refl (h : x.Tidy) : x.same x = true := by
  cases x with
  | json j => exact (Json.same_iff h h).2 (.refl j)
  | double x => exact x.same_refl
  | single x => exact x.same_refl
  | integer | bool | char | text => simp [same]

theorem same_symm (hx : x.Tidy) (hy : y.Tidy) (h : x.same y = true) : y.same x = true := by
  cases x <;> cases y <;> try cases h
  case json.json => exact (Json.same_iff hy hx).2 ((Json.same_iff hx hy).1 h).symm
  case double.double | single.single => exact Binary.same_symm h
  all_goals exact beq_iff_eq.2 (beq_iff_eq.1 h).symm

theorem same_trans (hx : x.Tidy) (hy : y.Tidy) (hz : z.Tidy) (h : x.same y = true) (h' : y.same z = true) :
    x.same z = true := by
  cases x <;> cases y <;> try cases h
  all_goals cases z <;> try cases h'
  case json.json.json =>
    exact (Json.same_iff hx hz).2 (((Json.same_iff hx hy).1 h).trans ((Json.same_iff hy hz).1 h'))
  case double.double.double | single.single.single => exact Binary.same_trans h h'
  all_goals exact beq_iff_eq.2 ((beq_iff_eq.1 h).trans (beq_iff_eq.1 h'))

/-- The comparison of operands is an equivalence. Floats of either format are the same if both are NaN,
or they have one value and one sign, and widening changes nothing of it. In place of a part of a value can
stand any other that is the same. Objects that are built from fields that can be compared can be, too. -/
theorem same_lawful :
    (Equivalence fun x y : {x : Operand // x.Tidy} => x.1.same y.1 = true) ∧
    (∀ x y : BitVec 64, (double (ofDouble x)).same (double (ofDouble y)) = true ↔
      (ofDouble x = .nan ∧ ofDouble y = .nan) ∨
        (ofDouble x ≠ .nan ∧ ofDouble y ≠ .nan ∧ (ofDouble x).value = (ofDouble y).value ∧ x.msb = y.msb)) ∧
    (∀ x y : BitVec 32, (single (ofSingle x)).same (single (ofSingle y)) = true ↔
      (ofSingle x = .nan ∧ ofSingle y = .nan) ∨
        (ofSingle x ≠ .nan ∧ ofSingle y ≠ .nan ∧ (ofSingle x).value = (ofSingle y).value ∧ x.msb = y.msb)) ∧
    (∀ x y : BitVec 32, (single (ofSingle x)).same (single (ofSingle y)) =
      (double (ofSingle x).widened).same (double (ofSingle y).widened)) ∧
    (∀ (place : Spot) (a b : Json), (place.put a).Tidy → b.Tidy → (json a).same (json b) = true →
      (json (place.put a)).same (json (place.put b)) = true) ∧
    ∀ fs : List (String × Json), (∀ f ∈ fs, f.2.Tidy) → (json (.ofPairs fs)).Tidy := by
  refine ⟨⟨?_, ?_, ?_⟩, same_ofDouble, same_ofSingle, ?_, ?_, fun fs => Json.tidy_ofPairs⟩
  · intro x
    exact same_refl x.2
  · intro x y h
    exact same_symm x.2 y.2 h
  · intro x y z h h'
    exact same_trans x.2 y.2 z.2 h h'
  · intro x y
    exact (same_widened x y).symm
  · intro place a b whole hb h
    have alike := (Json.same_iff whole.part hb).1 h
    exact (Json.same_iff whole (whole.put hb)).2 (alike.put place)

/-- A number deep in an object, and one of the same double in its place. -/
theorem same_lawful_nested :
    (json (.object [("n", .list [.null, .nat (2 ^ 53)]), ("z", .bool true)])).same
      (json (.object [("n", .list [.null, .nat (2 ^ 53 + 1)]), ("z", .bool true)])) = true := by
  refine same_lawful.2.2.2.2.1 (.field [] "n" (.item [.null] .here []) [("z", .bool true)])
    (.nat (2 ^ 53)) (.nat (2 ^ 53 + 1)) (.object ?_ ?_) (.number _) (by decide +kernel)
  · decide
  · intro f hf
    rcases List.mem_cons.1 hf with rfl | hf
    · refine .list fun j hj => ?_
      rcases List.mem_cons.1 hj with rfl | hj
      · exact .null
      · exact List.mem_singleton.1 hj ▸ .number _
    · exact List.mem_singleton.1 hf ▸ .bool true

end Operand

end PageTest
