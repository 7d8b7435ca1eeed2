import PageTest.Proofs.Number.Digits
import PageTest.Proofs.Time.Calendar

/-! The text of an instant reads back as the instant: each part is read up to where the next one begins. -/

namespace PageTest.Timestamp

open Text (trimStart_cons trimStart_digits)

variable {ds rest : List Char} {n most : Nat}

/-- A row of digits is read as a whole, if it is not too long and ends there. -/
theorem upTo_digits (digits : ∀ c ∈ ds, c.isDigit = true) (full : ds ≠ []) (h : ds.length ≤ most)
    (last : ds.length = most ∨ NoDigit rest) : upTo most (ds ++ rest) = some (numberOf ds, rest) := by
  have taken : ((ds ++ rest).take most).takeWhile Char.isDigit = ds := by
    rw [List.take_append, List.take_of_length_le h]
    refine takeWhile_digits digits ?_
    rcases last with whole | last
    · simp [whole]
    · cases rest with
      | nil => simp
      | cons c rest => cases hm : most - ds.length <;> simp_all
  obtain ⟨c, ds', rfl⟩ := List.exists_cons_of_ne_nil full
  rw [upTo, taken]
  simp

theorem two_padded (h : n < 100) : two? (paddedDigits 2 n ++ rest) = some (n, rest) := by
  have len : (paddedDigits 2 n).length = 2 := length_paddedDigits (by decide) h
  rw [two?, trimStart_digits (isDigit_paddedDigits 2 n) (paddedDigits_ne_nil 2 n),
    upTo_digits (isDigit_paddedDigits 2 n) (paddedDigits_ne_nil 2 n) (Nat.le_of_eq len) (.inl len),
    numberOf_paddedDigits]

theorem sign_cons {c : Char} (h : Text.isBlank c = false) : sign? c (c :: rest) = some rest := by
  simp [sign?, trimStart_cons h]

theorem year_minus : year? ('-' :: rest) = (upTo rest.length rest).map fun (n, rest) => (-(n : Int), rest) := by
  simp [year?, trimStart_cons, show Text.isBlank '-' = false from rfl]

theorem year_plus : year? ('+' :: rest) = (upTo rest.length rest).map fun (n, rest) => ((n : Int), rest) := by
  simp [year?, trimStart_cons, show Text.isBlank '+' = false from rfl]

theorem year_yearText (year : Int) (h : NoDigit rest) :
    year? ((yearText year).toList ++ rest) = some (year, rest) := by
  have whole : upTo (paddedDigits 4 year.natAbs ++ rest).length (paddedDigits 4 year.natAbs ++ rest) =
      some (year.natAbs, rest) := by
    rw [upTo_digits (isDigit_paddedDigits 4 _) (paddedDigits_ne_nil 4 _) (by simp) (.inr h),
      numberOf_paddedDigits]
  unfold yearText
  split
  next inside =>
    have len : (paddedDigits 4 year.natAbs).length = 4 := length_paddedDigits (by decide) (by omega)
    have digits := isDigit_paddedDigits 4 year.natAbs
    have first : upTo 4 (paddedDigits 4 year.natAbs ++ rest) = some (year.natAbs, rest) := by
      rw [upTo_digits digits (paddedDigits_ne_nil 4 _) (Nat.le_of_eq len) (.inl len), numberOf_paddedDigits]
    rw [toList_padded, year?, trimStart_digits digits (paddedDigits_ne_nil 4 _)]
    have value : ((year.natAbs : Nat) : Int) = year := by omega
    obtain ⟨c, ds, hds, digit⟩ := digits_cons digits (paddedDigits_ne_nil 4 year.natAbs)
    rw [hds, List.cons_append] at first ⊢
    split
    · simp_all
    · simp_all
    · simp [first, value]
  next outside =>
    by_cases negative : year < 0
    · have value : -((year.natAbs : Nat) : Int) = year := by omega
      have text : ("-" ++ padded 4 year.natAbs).toList ++ rest = '-' :: (paddedDigits 4 year.natAbs ++ rest) := by
        simp
      rw [if_pos negative, text, year_minus, whole]
      exact congrArg (fun y : Int => some (y, rest)) value
    · have value : ((year.natAbs : Nat) : Int) = year := by omega
      have text : ("+" ++ padded 4 year.natAbs).toList ++ rest = '+' :: (paddedDigits 4 year.natAbs ++ rest) := by
        simp
      rw [if_neg negative, text, year_plus, whole]
      exact congrArg (fun y : Int => some (y, rest)) value

theorem decimals_padded (width n : Nat) (h : 0 < width) (h' : width ≤ 9) (hn : n < 10 ^ width) (hr : NoDigit rest) :
    decimals? ('.' :: (paddedDigits width n ++ rest)) = some (n * 10 ^ (9 - width), rest) := by
  have len := length_paddedDigits h hn
  have taken := takeWhile_digits (isDigit_paddedDigits width n) hr
  have kept : (paddedDigits width n).take 9 = paddedDigits width n :=
    List.take_of_length_le (by omega)
  simp only [decimals?, taken]
  split
  next none => exact absurd none (paddedDigits_ne_nil width n)
  next => simp [kept, len]

theorem decimals_fractionText (h : n < 1000000000) (hr : NoDigit rest) (dot : rest.head? ≠ some '.') :
    decimals? ((fractionText n).toList ++ rest) = some (n, rest) := by
  unfold fractionText
  split
  next zero =>
    subst zero
    cases rest with
    | nil => rfl
    | cons c rest =>
      simp only [List.head?_cons, ne_eq, Option.some.injEq] at dot
      simp only [String.toList_empty, List.nil_append, decimals?]
      split <;> simp_all
  next =>
    split
    next millis =>
      have value : n / 1000000 * 1000000 = n := by omega
      simpa [value] using decimals_padded 3 (n / 1000000) (by decide) (by decide) (by omega) hr
    next =>
      split
      next micros =>
        have value : n / 1000 * 1000 = n := by omega
        simpa [value] using decimals_padded 6 (n / 1000) (by decide) (by decide) (by omega) hr
      next => simpa using decimals_padded 9 n (by decide) (by decide) (by omega) hr

theorem separator_cons : separator? ('T' :: rest) = some rest := rfl

theorem offset_universal : offset? ['Z'] = some (0, []) := rfl

variable {t : Timestamp}

theorem secondOfDay_lt (t : Timestamp) : t.secondOfDay < 86400 := by
  unfold secondOfDay
  omega

theorem regular_iff : t.regular = true ↔ t.nanos < 1000000000 ∨ t.secondOfDay % 60 = 59 := by
  simp [regular]

/-- An instant is another than the one that its text names just if its second runs on before the end of its
minute. -/
theorem settled_eq_iff : t.settled = t ↔ t.regular = true := by
  unfold settled
  split
  next regular => exact iff_of_true rfl regular
  next late =>
    refine iff_of_false (fun same => ?_) late
    have seconds : t.seconds + 1 = t.seconds := congrArg Timestamp.seconds same
    omega

theorem date_mk {seconds : Int} (nanos : Nat) (h : seconds / 86400 = t.seconds / 86400) :
    (mk seconds nanos).date = t.date := by
  simp only [date, h]

/-- The instant at which a clock shows a time on the day of `t`: the sixty-first second of a minute is the
one before it, running on. -/
theorem ofLocal_date {hour minute second nanos : Nat} (year : Date.yearInRange t.date.year = true)
    (hh : hour < 24) (hmin : minute < 60) (hs : second ≤ 60) :
    ofLocal? t.date hour minute second nanos 0 =
      some ⟨t.seconds / 86400 * 86400 + hour * 3600 + minute * 60 + (if second = 60 then 59 else second : Nat) - 0,
        if second = 60 then nanos + 1000000000 else nanos⟩ := by
  have day : t.date.valid = true := Date.valid_ofDays _
  have days : t.date.toDays = t.seconds / 86400 := Date.toDays_ofDays _
  have short : (if second = 60 then 59 else second) < 60 := by split <;> omega
  have within : (t.seconds / 86400 * 86400 + hour * 3600 + minute * 60 +
      (if second = 60 then 59 else second : Nat) - 0) / 86400 = t.seconds / 86400 := by omega
  simp only [ofLocal?, days]
  rw [date_mk _ within]
  simp [day, year, hh, hmin, hs]

/-- The date and time of an instant name the instant, or the next second of its minute. -/
theorem ofLocal_text (h : t.valid = true) :
    ofLocal? t.date (t.secondOfDay / 3600) (t.secondOfDay / 60 % 60)
      (if 1000000000 ≤ t.nanos then t.secondOfDay % 60 + 1 else t.secondOfDay % 60)
      (if 1000000000 ≤ t.nanos then t.nanos - 1000000000 else t.nanos) 0 = some t.settled := by
  have range := secondOfDay_lt t
  have seconds : t.seconds = t.seconds / 86400 * 86400 + t.secondOfDay := by
    unfold secondOfDay
    omega
  simp only [valid, Bool.and_eq_true, decide_eq_true_eq] at h
  rw [ofLocal_date h.1 (by omega) (by omega) (by split <;> omega), Option.some_inj]
  by_cases leaps : 1000000000 ≤ t.nanos
  · by_cases last : t.secondOfDay % 60 = 59
    · have kept : t.settled = t := settled_eq_iff.2 (regular_iff.2 (.inr last))
      rw [kept]
      change mk _ _ = mk t.seconds t.nanos
      simp only [leaps, last, if_true]
      congr 1 <;> omega
    · have next : t.settled = ⟨t.seconds + 1, t.nanos - 1000000000⟩ :=
        if_neg fun regular => by have := regular_iff.1 regular; omega
      have short : ¬ t.secondOfDay % 60 + 1 = 60 := by omega
      rw [next]
      simp only [leaps, short, if_true, if_false]
      congr 1
      omega
  · have kept : t.settled = t := settled_eq_iff.2 (regular_iff.2 (.inl (Nat.lt_of_not_le leaps)))
    have short : ¬ t.secondOfDay % 60 = 60 := by omega
    rw [kept]
    change mk _ _ = mk t.seconds t.nanos
    simp only [leaps, short, if_false]
    congr 1
    omega

/-- The time of day as it is written, with decimals of the second where there are any. -/
def clockText (hour minute second nanos : Nat) : List Char :=
  paddedDigits 2 hour ++ ':' :: (paddedDigits 2 minute ++ ':' ::
    (paddedDigits 2 second ++ ((fractionText nanos).toList ++ ['Z'])))

theorem toList_text (t : Timestamp) : t.text.toList =
    (yearText t.date.year).toList ++ '-' :: (paddedDigits 2 t.date.month ++ '-' ::
      (paddedDigits 2 t.date.day ++ 'T' :: clockText (t.secondOfDay / 3600) (t.secondOfDay / 60 % 60)
        (if 1000000000 ≤ t.nanos then t.secondOfDay % 60 + 1 else t.secondOfDay % 60)
        (if 1000000000 ≤ t.nanos then t.nanos - 1000000000 else t.nanos))) := by
  simp [text, clockText]

theorem read_first {α β : Type} {part : Option α} {a : α} {next : α → Option β} (h : part = some a) :
    part >>= next = next a := by
  rw [h]
  rfl

/-- Each part is read up to where the next one begins. -/
theorem parse_written {s : String} {year : Int} {month day hour minute second nanos : Nat}
    (written : s.toList = (yearText year).toList ++ '-' :: (paddedDigits 2 month ++ '-' ::
      (paddedDigits 2 day ++ 'T' :: clockText hour minute second nanos)))
    (hm : month < 100) (hd : day < 100) (hh : hour < 100) (hmin : minute < 100) (hs : second < 100)
    (hn : nanos < 1000000000) : parse? s = ofLocal? ⟨year, month, day⟩ hour minute second nanos 0 := by
  have dash : Text.isBlank '-' = false := rfl
  have colon : Text.isBlank ':' = false := rfl
  have last : NoDigit ['Z'] := noDigit_cons.2 rfl
  have decimals := decimals_fractionText hn last (by decide)
  unfold parse?
  rw [written]
  refine (read_first (year_yearText year (noDigit_cons.2 rfl))).trans ?_
  refine (read_first (sign_cons dash)).trans ((read_first (two_padded hm)).trans ?_)
  refine (read_first (sign_cons dash)).trans ((read_first (two_padded hd)).trans ?_)
  refine (read_first separator_cons).trans ((read_first (two_padded hh)).trans ?_)
  refine (read_first (sign_cons colon)).trans ((read_first (two_padded hmin)).trans ?_)
  refine (read_first (sign_cons colon)).trans ((read_first (two_padded hs)).trans ?_)
  exact (read_first decimals).trans (read_first offset_universal)

theorem parse_text (h : t.valid = true) : parse? t.text = some t.settled := by
  have date : t.date.month ≤ 12 ∧ t.date.day ≤ 31 := Date.le_of_valid (Date.valid_ofDays _)
  have range := secondOfDay_lt t
  have second : (if 1000000000 ≤ t.nanos then t.secondOfDay % 60 + 1 else t.secondOfDay % 60) < 100 := by
    split <;> omega
  have nanos : (if 1000000000 ≤ t.nanos then t.nanos - 1000000000 else t.nanos) < 1000000000 := by
    simp only [valid, Bool.and_eq_true, decide_eq_true_eq] at h
    split <;> omega
  rw [parse_written (toList_text t) (by omega) (by omega) (by omega) (by omega) second nanos]
  exact ofLocal_text h

end PageTest.Timestamp
