import PageTest.Proofs.Json.Exact
import PageTest.Proofs.Json.Written
import PageTest.Proofs.Number.Texts

/-! No two values have one text. The text of a value ends where the value does, whatever comes next, so that
the parts of an array or of an object are found again in its text. What a failed check shows of its operands
is therefore always a difference. -/

namespace PageTest

namespace JsonNumber

/-- A whole number with its sign. -/
def whole (negative : Bool) (n : Nat) : JsonNumber := if negative then .negative n else .natural n

variable {a b : JsonNumber}

theorem toList_text_whole (s : Bool) (n : Nat) : (whole s n).text.toList = signedText s (Nat.toDigits 10 n) := by
  cases s <;> simp [whole, text, signedText, Nat.repr_eq_ofList_toDigits]

theorem Proper.forms (h : a.Proper) : (∃ s n, a = whole s n) ∨
    ∃ s m k, a = .double (.finite s m k) ∧ Binary.Written .double m k := by
  cases h with
  | @natural n => exact .inl ⟨false, n, rfl⟩
  | @negative n => exact .inl ⟨true, n, rfl⟩
  | @double bits finite =>
    cases eq : Binary.ofDouble bits with
    | nan => rw [eq] at finite; cases finite
    | infinite s => rw [eq] at finite; cases finite
    | finite s m k => exact .inr ⟨s, m, k, rfl, Binary.written_ofBits eq⟩

theorem Proper.numerals (h : a.Proper) : a.text.toList ≠ [] ∧ ∀ c ∈ a.text.toList, isNumeral c = true := by
  rcases h.forms with ⟨s, n, rfl⟩ | ⟨s, m, k, rfl, -⟩
  · rw [toList_text_whole]
    exact (unsigned_toDigits n).signed
  · rw [text, Binary.toList_text_finite]
    exact (Decimal.unsigned_text ..).signed

/-- A double keeps a mark that whole numbers do not have. -/
theorem text_whole_ne_double (s t : Bool) (n m k : Nat) :
    (whole s n).text.toList ≠ (double (.finite t m k)).text.toList := by
  intro eq
  rw [toList_text_whole, text, Binary.toList_text_finite] at eq
  have decimal := Decimal.unsigned_text .json (Binary.shortest .double NumberStyle.json.tie m k)
  obtain ⟨-, digits⟩ := signedText_inj (unsigned_toDigits n) decimal eq
  obtain ⟨c, mem, mark⟩ := decimal.mark rfl
  rw [← digits] at mem
  rw [isDigit_toDigits c mem] at mark
  cases mark

/-- Different numbers have different texts. -/
theorem Proper.eq_of_text (ha : a.Proper) (hb : b.Proper) (eq : a.text.toList = b.text.toList) : a = b := by
  rcases ha.forms with ⟨s, n, rfl⟩ | ⟨s, m, k, rfl, written⟩ <;>
    rcases hb.forms with ⟨t, n', rfl⟩ | ⟨t, m', k', rfl, written'⟩
  · rw [toList_text_whole, toList_text_whole] at eq
    obtain ⟨rfl, digits⟩ := signedText_inj (unsigned_toDigits n) (unsigned_toDigits n') eq
    rw [toDigits_inj digits]
  · exact absurd eq (text_whole_ne_double s t n m' k')
  · exact absurd eq.symm (text_whole_ne_double t s n' m k)
  · have same : Binary.finite s m k = .finite t m' k' :=
      Binary.eq_of_text (f := .double) written written' (by decide) (String.toList_inj.1 eq)
    rw [same]

end JsonNumber

namespace Json

variable {a b j : Json} {js : List Json} {fs : List (String × Json)} {r r' cs ds : List Char}
  {s t : String}

section Parts

theorem mem_itemNumbers {n : JsonNumber} (h : j ∈ js) (hn : n ∈ j.numbers) : n ∈ itemNumbers js := by
  induction js with
  | nil => cases h
  | cons i js ih =>
    rcases List.mem_cons.1 h with rfl | mem
    · exact List.mem_append_left _ hn
    · exact List.mem_append_right _ (ih mem)

theorem mem_fieldNumbers {n : JsonNumber} {f : String × Json} (h : f ∈ fs) (hn : n ∈ f.2.numbers) :
    n ∈ fieldNumbers fs := by
  induction fs with
  | nil => cases h
  | cons g fs ih =>
    rcases List.mem_cons.1 h with rfl | mem
    · exact List.mem_append_left _ hn
    · exact List.mem_append_right _ (ih mem)

theorem Proper.items (h : (list js).Proper) : ∀ j ∈ js, j.Proper := by
  intro j hj
  cases h.tidy with
  | list tidy => exact ⟨tidy j hj, fun n hn => h.numbers n (mem_itemNumbers hj hn)⟩

theorem Proper.fields (h : (object fs).Proper) : ∀ f ∈ fs, f.2.Proper := by
  intro f hf
  cases h.tidy with
  | object _ tidy => exact ⟨tidy f hf, fun n hn => h.numbers n (mem_fieldNumbers hf hn)⟩

end Parts

section Ends

/-- A text that does not go on with what a number is written with. -/
def Delimited (cs : List Char) : Prop := ∀ c ∈ cs.head?, isNumeral c = false

theorem Delimited.takeWhile (h : Delimited r) : r.takeWhile isNumeral = [] := by
  cases r with
  | nil => rfl
  | cons c r => simp [h c rfl]

theorem numerals_inj (hc : ∀ c ∈ cs, isNumeral c = true) (hd : ∀ c ∈ ds, isNumeral c = true) (h : Delimited r)
    (h' : Delimited r') (eq : cs ++ r = ds ++ r') : cs = ds ∧ r = r' := by
  have same : cs = ds := by
    have taken := congrArg (List.takeWhile isNumeral) eq
    rwa [List.takeWhile_append_of_pos hc, List.takeWhile_append_of_pos hd, h.takeWhile, h'.takeWhile,
      List.append_nil, List.append_nil] at taken
  rw [same] at eq
  exact ⟨same, List.append_cancel_left eq⟩

/-- A quoted text ends at its closing quote. -/
theorem quote_inj (eq : quote s ++ r = quote t ++ r') : s = t ∧ r = r' := by
  rw [text_quoted, text_quoted] at eq
  have read := congrArg text? (List.cons.inj eq).2
  rw [text_quote, text_quote] at read
  simpa using read

/-- What comes after the first value of an array. -/
def afterItem (r : List Char) : List Json → List Char
  | [] => ']' :: r
  | j :: js => ',' :: (compactItems (j :: js) ++ ']' :: r)

/-- What comes after the first field of an object. -/
def afterField (r : List Char) : List (String × Json) → List Char
  | [] => '}' :: r
  | f :: fs => ',' :: (compactFields (f :: fs) ++ '}' :: r)

theorem compactItems_cons (j : Json) (js : List Json) (r : List Char) :
    compactItems (j :: js) ++ ']' :: r = compact j ++ afterItem r js := by
  cases js <;> simp [compactItems, afterItem]

theorem compactFields_cons (k : String) (j : Json) (fs : List (String × Json)) (r : List Char) :
    compactFields ((k, j) :: fs) ++ '}' :: r = quote k ++ ':' :: (compact j ++ afterField r fs) := by
  cases fs <;> simp [compactFields, afterField]

theorem delimited_afterItem (r : List Char) (js : List Json) : Delimited (afterItem r js) := by
  cases js <;> simp [Delimited, afterItem] <;> decide

theorem delimited_afterField (r : List Char) (fs : List (String × Json)) : Delimited (afterField r fs) := by
  cases fs <;> simp [Delimited, afterField] <;> decide

end Ends

section Opening

/-- The first character of a value; any digit or sign counts as a zero. -/
def opening : Json → Char
  | .null => 'n'
  | .bool b => bif b then 't' else 'f'
  | .number _ => '0'
  | .text _ | .unpaired => '"'
  | .list _ => '['
  | .object _ => '{'

/-- The character as `opening` gives it. -/
def leading (c : Char) : Char := if isNumeral c then '0' else c

theorem exists_compact (h : a.Proper) : ∃ c t, compact a = c :: t ∧ leading c = a.opening := by
  cases a with
  | null => exact ⟨_, _, rfl, rfl⟩
  | bool b => cases b <;> exact ⟨_, _, rfl, rfl⟩
  | number n =>
    obtain ⟨full, numerals⟩ := (h.numbers n List.mem_cons_self).numerals
    obtain ⟨c, t, eq⟩ := List.exists_cons_of_ne_nil full
    exact ⟨c, t, eq, if_pos (numerals c (by rw [eq]; exact List.mem_cons_self))⟩
  | text s => exact ⟨_, _, rfl, rfl⟩
  | unpaired => exact ⟨_, _, rfl, rfl⟩
  | list items => exact ⟨_, _, rfl, rfl⟩
  | object fields => exact ⟨_, _, rfl, rfl⟩

/-- Two values of one kind; `true` and `false` are kinds of their own. -/
inductive Kindred : Json → Json → Prop
  | null : Kindred .null .null
  | bool (b : Bool) : Kindred (.bool b) (.bool b)
  | number (m n : JsonNumber) : Kindred (.number m) (.number n)
  | text (s t : String) : Kindred (.text s) (.text t)
  | list (as bs : List Json) : Kindred (.list as) (.list bs)
  | object (fs gs : List (String × Json)) : Kindred (.object fs) (.object gs)

theorem kindred_of_opening (ha : a.Tidy) (hb : b.Tidy) (h : a.opening = b.opening) : Kindred a b := by
  cases ha with
  | bool x =>
    cases hb with
    | bool y =>
      cases x <;> cases y
      · exact .bool false
      · exact absurd h (by decide)
      · exact absurd h (by decide)
      · exact .bool true
    | _ => cases x <;> exact absurd h (by simp [opening])
  | _ =>
    cases hb with
    | bool y => cases y <;> exact absurd h (by simp [opening])
    | _ => first | constructor | exact absurd h (by simp [opening])

/-- Where a text begins with a value, its first character tells which kind of value it is. -/
theorem kindred (ha : a.Proper) (hb : b.Proper) (eq : compact a ++ r = compact b ++ r') : Kindred a b := by
  obtain ⟨c, t, text, lead⟩ := exists_compact ha
  obtain ⟨c', t', text', lead'⟩ := exists_compact hb
  rw [text, text'] at eq
  refine kindred_of_opening ha.tidy hb.tidy ?_
  rw [← lead, ← lead', (List.cons.inj eq).1]

theorem compact_ne_closed (h : a.Proper) : compact a ++ r ≠ ']' :: r' := by
  obtain ⟨c, t, text, lead⟩ := exists_compact h
  rintro eq
  rw [text] at eq
  obtain rfl : c = ']' := (List.cons.inj eq).1
  cases a with
  | bool b => cases b <;> exact absurd lead (by decide)
  | _ => exact absurd lead (by simp [opening, leading, isNumeral])

end Opening

mutual

/-- Texts that begin with a value each, and are equal, begin with the same value. -/
theorem compact_inj : ∀ {a b : Json} {r r' : List Char}, a.Proper → b.Proper → Delimited r → Delimited r' →
    compact a ++ r = compact b ++ r' → a = b ∧ r = r'
  | .null, _, _, _, ha, hb, _, _, eq => by
    cases kindred ha hb eq
    exact ⟨rfl, List.append_cancel_left eq⟩
  | .bool _, _, _, _, ha, hb, _, _, eq => by
    cases kindred ha hb eq
    exact ⟨rfl, List.append_cancel_left eq⟩
  | .number m, _, _, _, ha, hb, h, h', eq => by
    cases kindred ha hb eq with
    | number _ n =>
      have hm := ha.numbers m List.mem_cons_self
      have hn := hb.numbers n List.mem_cons_self
      obtain ⟨texts, rest⟩ := numerals_inj hm.numerals.2 hn.numerals.2 h h' eq
      exact ⟨congrArg number (hm.eq_of_text hn texts), rest⟩
  | .text _, _, _, _, ha, hb, _, _, eq => by
    cases kindred ha hb eq
    obtain ⟨rfl, rest⟩ := quote_inj eq
    exact ⟨rfl, rest⟩
  | .unpaired, _, _, _, ha, _, _, _, _ => by cases ha.tidy
  | .list as, _, _, _, ha, hb, _, _, eq => by
    cases kindred ha hb eq
    rw [compact, compact, List.cons_append, List.cons_append, List.append_assoc, List.append_assoc] at eq
    obtain ⟨rfl, rest⟩ := compactItems_inj ha.items hb.items (List.cons.inj eq).2
    exact ⟨rfl, rest⟩
  | .object fs, _, _, _, ha, hb, _, _, eq => by
    cases kindred ha hb eq
    rw [compact, compact, List.cons_append, List.cons_append, List.append_assoc, List.append_assoc] at eq
    obtain ⟨rfl, rest⟩ := compactFields_inj ha.fields hb.fields (List.cons.inj eq).2
    exact ⟨rfl, rest⟩

/-- The values of an array are found up to its closing bracket. -/
theorem compactItems_inj : ∀ {as bs : List Json} {r r' : List Char}, (∀ j ∈ as, j.Proper) → (∀ j ∈ bs, j.Proper) →
    compactItems as ++ ']' :: r = compactItems bs ++ ']' :: r' → as = bs ∧ r = r'
  | [], [], _, _, _, _, eq => ⟨rfl, (List.cons.inj eq).2⟩
  | [], b :: bs, _, _, _, hb, eq => by
    rw [compactItems_cons] at eq
    exact absurd eq.symm (compact_ne_closed (hb b List.mem_cons_self))
  | a :: as, [], _, _, ha, _, eq => by
    rw [compactItems_cons] at eq
    exact absurd eq (compact_ne_closed (ha a List.mem_cons_self))
  | a :: as, b :: bs, r, r', ha, hb, eq => by
    rw [compactItems_cons, compactItems_cons] at eq
    obtain ⟨ha, has⟩ := List.forall_mem_cons.1 ha
    obtain ⟨hb, hbs⟩ := List.forall_mem_cons.1 hb
    obtain ⟨rfl, rest⟩ := compact_inj ha hb (delimited_afterItem r as) (delimited_afterItem r' bs) eq
    cases as with
    | nil =>
      cases bs with
      | nil => exact ⟨rfl, (List.cons.inj rest).2⟩
      | cons b bs => exact absurd (List.cons.inj rest).1 (by decide)
    | cons a' as =>
      cases bs with
      | nil => exact absurd (List.cons.inj rest).1 (by decide)
      | cons b bs =>
        obtain ⟨others, rest⟩ := compactItems_inj has hbs (List.cons.inj rest).2
        exact ⟨congrArg _ others, rest⟩

theorem compactFields_inj : ∀ {fs gs : List (String × Json)} {r r' : List Char}, (∀ f ∈ fs, f.2.Proper) →
    (∀ f ∈ gs, f.2.Proper) → compactFields fs ++ '}' :: r = compactFields gs ++ '}' :: r' → fs = gs ∧ r = r'
  | [], [], _, _, _, _, eq => ⟨rfl, (List.cons.inj eq).2⟩
  | [], (k, j) :: gs, _, _, _, hb, eq => by
    rw [compactFields_cons] at eq
    exact absurd (List.cons.inj eq).1 (by decide)
  | (k, j) :: fs, [], _, _, ha, _, eq => by
    rw [compactFields_cons] at eq
    exact absurd (List.cons.inj eq).1 (by decide)
  | (k, a) :: fs, (l, b) :: gs, r, r', ha, hb, eq => by
    rw [compactFields_cons, compactFields_cons] at eq
    obtain ⟨ha, hfs⟩ := List.forall_mem_cons.1 ha
    obtain ⟨hb, hgs⟩ := List.forall_mem_cons.1 hb
    obtain ⟨rfl, values⟩ := quote_inj eq
    obtain ⟨same, rest⟩ := compact_inj ha hb (delimited_afterField r fs) (delimited_afterField r' gs)
      (List.cons.inj values).2
    dsimp only at same
    subst same
    cases fs with
    | nil =>
      cases gs with
      | nil => exact ⟨rfl, (List.cons.inj rest).2⟩
      | cons g gs => exact absurd (List.cons.inj rest).1 (by decide)
    | cons f fs =>
      cases gs with
      | nil => exact absurd (List.cons.inj rest).1 (by decide)
      | cons g gs =>
        obtain ⟨others, rest⟩ := compactFields_inj hfs hgs (List.cons.inj rest).2
        exact ⟨congrArg _ others, rest⟩

end

/-- Different values have different texts. -/
theorem eq_of_render (ha : a.Proper) (hb : b.Proper) (eq : a.render = b.render) : a = b := by
  have texts : compact a ++ [] = compact b ++ [] := by
    rw [List.append_nil, List.append_nil]
    exact String.ofList_injective eq
  have ends : Delimited [] := by simp [Delimited]
  exact (compact_inj ha hb ends ends texts).1

end Json

theorem intText_inj {i j : Int} (h : intText i = intText j) : i = j := by
  have text : ∀ i : Int, (intText i).toList = signedText (decide (i < 0)) (Nat.toDigits 10 i.natAbs) := by
    intro i
    by_cases neg : i < 0 <;> simp [intText, signedText, neg, Nat.repr_eq_ofList_toDigits]
  have texts := congrArg String.toList h
  rw [text, text] at texts
  obtain ⟨sign, digits⟩ := signedText_inj (unsigned_toDigits _) (unsigned_toDigits _) texts
  have magnitude := toDigits_inj digits
  have negative := decide_eq_decide.1 sign
  omega

namespace Operand

/-- Two operands of one type, each of them a value of that type. -/
inductive Comparable : Operand → Operand → Prop
  | integer (i j : Int) : Comparable (.integer i) (.integer j)
  | double (x y : BitVec 64) : Comparable (.double (Binary.ofDouble x)) (.double (Binary.ofDouble y))
  | single (x y : BitVec 32) : Comparable (.single (Binary.ofSingle x)) (.single (Binary.ofSingle y))
  | bool (a b : Bool) : Comparable (.bool a) (.bool b)
  | char (a b : Char) : Comparable (.char a) (.char b)
  | text (s t : String) : Comparable (.text s) (.text t)
  | json {a b : Json} (ha : a.Proper) (hb : b.Proper) : Comparable (.json a) (.json b)

variable {x y : Operand}

theorem Comparable.tidy (h : x.Comparable y) : x.Tidy := by
  cases h with
  | json ha _ => exact ha.tidy
  | _ => trivial

/-- Different operands of one type are shown differently. -/
theorem Comparable.eq_of_shown (h : x.Comparable y) (eq : x.shown = y.shown) : x = y := by
  cases h with
  | integer i j => exact congrArg Operand.integer (intText_inj eq)
  | double x y =>
    exact congrArg Operand.double (Binary.eq_of_text (Binary.fits_ofBits _ _) (Binary.fits_ofBits _ _) (by decide) eq)
  | single x y =>
    exact congrArg Operand.single (Binary.eq_of_text (Binary.fits_ofBits _ _) (Binary.fits_ofBits _ _) (by decide) eq)
  | bool a b => cases a <;> cases b <;> first | rfl | exact absurd eq (by decide)
  | char a b => exact congrArg Operand.char (List.singleton_inj.1 (String.ofList_injective eq))
  | text s t => exact congrArg Operand.text eq
  | json ha hb => exact congrArg Operand.json (Json.eq_of_render ha hb eq)

end Operand

namespace Check

variable {x y : Operand}

theorem is_fail {msg : String} (h : (is x y msg).kind = .fail) : x.same y = false ∧
    is x y msg = ⟨.fail, msg ++ " - Got " ++ x.shown ++ ", expected " ++ y.shown⟩ := by
  unfold is at h ⊢
  split
  next same => rw [if_pos same] at h; cases h
  next other => exact ⟨Bool.eq_false_iff.2 other, rfl⟩

/-- A failed check shows both operands, and what it shows of them is different: operands of one type are shown
alike only if they are equal. -/
theorem is_shows_difference (h : x.Comparable y) (msg : String) :
    ((is x y msg).kind = .fail →
      is x y msg = ⟨.fail, msg ++ " - Got " ++ x.shown ++ ", expected " ++ y.shown⟩ ∧ x.shown ≠ y.shown) ∧
    (x.shown = y.shown → x = y) := by
  refine ⟨fun failed => ?_, h.eq_of_shown⟩
  obtain ⟨other, entry⟩ := is_fail failed
  refine ⟨entry, fun shown => ?_⟩
  rw [← h.eq_of_shown shown, Operand.same_refl h.tidy] at other
  cases other

/-- The zeros inside two arrays differ in their sign only. -/
theorem is_shows_signed_zero :
    let zeros (bits : BitVec 64) : Json := .list [.list [], .number (.double (Binary.ofDouble bits))]
    is (.json (zeros 0)) (.json (zeros (1 <<< 63))) "zero" =
      ⟨.fail, "zero - Got " ++ (zeros 0).render ++ ", expected " ++ (zeros (1 <<< 63)).render⟩ ∧
    (zeros 0).render ≠ (zeros (1 <<< 63)).render := by
  intro zeros
  have proper : ∀ bits, (Binary.ofDouble bits).isFinite = true → (zeros bits).Proper := by
    intro bits finite
    refine ⟨.list ?_, ?_⟩
    · simp [Json.Tidy.list, Json.Tidy.number]
    · simpa [zeros, Json.numbers, Json.itemNumbers] using JsonNumber.Proper.double finite
  have comparable := Operand.Comparable.json (proper 0 (by decide)) (proper (1 <<< 63) (by decide))
  exact (is_shows_difference comparable "zero").1 (by decide)

end Check

end PageTest
