import PageTest.Time.Calendar

/-! A count of days names a date of the calendar, and the date leads back to the count. The years of an era
begin in March, so a year has 365 days, and one more exactly if the February at its end is a leap one. -/

namespace PageTest.Date

variable {d : Int}

/-- The year of an era in which its day `d` lies. -/
def yearOfEra (d : Int) : Int := (d - d / 1460 + d / 36524 - d / 146096) / 365

def startOfYear (year : Int) : Int := 365 * year + year / 4 - year / 100

/-- The date of a day of a year that begins in March. -/
def ofDayOfYear (year day : Int) : Date :=
  let month := (5 * day + 2) / 153
  let dayOfMonth := (day - (153 * month + 2) / 5 + 1).toNat
  if month < 10 then ⟨year, (month + 3).toNat, dayOfMonth⟩ else ⟨year + 1, (month - 9).toNat, dayOfMonth⟩

theorem ofDays_eq (n : Int) :
    ofDays n = ofDayOfYear
      (yearOfEra ((n + epoch) % 146097) + (n + epoch) / 146097 * 400)
      ((n + epoch) % 146097 - startOfYear (yearOfEra ((n + epoch) % 146097))) := rfl

theorem yearOfEra_bounds (h : 0 ≤ d) (h' : d < 146097) : 0 ≤ yearOfEra d ∧ yearOfEra d < 400 := by
  unfold yearOfEra
  omega

-- The last day of an era is the leap day of its last year; it alone would be put into a fifth century.
theorem century_yearOfEra (h : 0 ≤ d) (h' : d < 146096) : yearOfEra d / 100 = d / 36524 := by
  have whole : d / 146096 = 0 := by omega
  have century : d / 36524 = 0 ∨ d / 36524 = 1 ∨ d / 36524 = 2 ∨ d / 36524 = 3 := by omega
  unfold yearOfEra
  rw [whole]
  rcases century with century | century | century | century <;> rw [century] <;> omega

theorem dayOfYear_bounds (h : 0 ≤ d) (h' : d < 146097) :
    startOfYear (yearOfEra d) ≤ d ∧ d ≤ startOfYear (yearOfEra d) + 365 := by
  by_cases last : d = 146096
  · subst last
    decide
  · have century := century_yearOfEra h (by omega)
    have whole : d / 146096 = 0 := by omega
    unfold startOfYear
    rw [century]
    unfold yearOfEra
    rw [whole]
    omega

/-- Only a year that ends with a leap February has a day with number 365. -/
theorem isLeap_of_last (h : 0 ≤ d) (h' : d < 146097) (hd : d = startOfYear (yearOfEra d) + 365)
    (era : Int) : isLeap (yearOfEra d + era * 400 + 1) = true := by
  have leap : (yearOfEra d + 1) % 4 = 0 ∧ ((yearOfEra d + 1) % 100 ≠ 0 ∨ (yearOfEra d + 1) % 400 = 0) := by
    by_cases last : d = 146096
    · subst last
      decide
    · have century := century_yearOfEra h (by omega)
      have whole : d / 146096 = 0 := by omega
      unfold startOfYear at hd
      rw [century] at hd
      unfold yearOfEra at hd century ⊢
      rw [whole] at hd century ⊢
      generalize hy : (d - d / 1460 + d / 36524 - 0) / 365 = y at hd century ⊢
      have fourth : y % 4 = 3 := by omega
      have hundredth : y % 100 ≠ 99 := by omega
      omega
  simp only [isLeap, Bool.and_eq_true, Bool.or_eq_true, bne_iff_ne, beq_iff_eq]
  omega

theorem valid_ofDayOfYear {year day : Int} (h : 0 ≤ day) (h' : day ≤ 365)
    (leap : day = 365 → isLeap (year + 1) = true) : (ofDayOfYear year day).valid = true := by
  have months : (5 * day + 2) / 153 = 0 ∨ (5 * day + 2) / 153 = 1 ∨ (5 * day + 2) / 153 = 2 ∨
      (5 * day + 2) / 153 = 3 ∨ (5 * day + 2) / 153 = 4 ∨ (5 * day + 2) / 153 = 5 ∨
      (5 * day + 2) / 153 = 6 ∨ (5 * day + 2) / 153 = 7 ∨ (5 * day + 2) / 153 = 8 ∨
      (5 * day + 2) / 153 = 9 ∨ (5 * day + 2) / 153 = 10 ∨ (5 * day + 2) / 153 = 11 := by omega
  simp only [ofDayOfYear]
  rcases months with m | m | m | m | m | m | m | m | m | m | m | m <;> rw [m] <;>
    simp [valid, daysInMonth]
  all_goals try omega
  by_cases last : day = 365
  · rw [leap last, if_pos rfl]
    omega
  · split <;> omega

theorem valid_ofDays (n : Int) : (ofDays n).valid = true := by
  have h : 0 ≤ (n + epoch) % 146097 := by omega
  have h' : (n + epoch) % 146097 < 146097 := by omega
  obtain ⟨low, high⟩ := dayOfYear_bounds h h'
  rw [ofDays_eq]
  refine valid_ofDayOfYear (by omega) (by omega) fun last => ?_
  exact isLeap_of_last h h' (by omega) _

theorem daysInMonth_le (year : Int) (month : Nat) : daysInMonth year month ≤ 31 := by
  unfold daysInMonth
  split
  · split <;> decide
  · split <;> decide

theorem le_of_valid {date : Date} (h : date.valid = true) : date.month ≤ 12 ∧ date.day ≤ 31 := by
  simp only [valid, Bool.and_eq_true, decide_eq_true_eq] at h
  exact ⟨h.1.1.2, Nat.le_trans h.2 (daysInMonth_le _ _)⟩

theorem toDays_ofDayOfYear {year day : Int} (h : 0 ≤ day) (h' : day ≤ 365) :
    (ofDayOfYear year day).toDays = year / 400 * 146097 + (startOfYear (year % 400) + day) - epoch := by
  simp only [ofDayOfYear]
  split
  next early =>
    by_cases short : ((5 * day + 2) / 153 + 3).toNat ≤ 2
    · omega
    · simp only [toDays, short, if_false, startOfYear]
      omega
  next late =>
    have short : ((5 * day + 2) / 153 - 9).toNat ≤ 2 := by omega
    simp only [toDays, short, if_true, startOfYear]
    omega

theorem toDays_ofDays (n : Int) : (ofDays n).toDays = n := by
  have h : 0 ≤ (n + epoch) % 146097 := by omega
  have h' : (n + epoch) % 146097 < 146097 := by omega
  obtain ⟨low, high⟩ := dayOfYear_bounds h h'
  obtain ⟨first, last⟩ := yearOfEra_bounds h h'
  rw [ofDays_eq, toDays_ofDayOfYear (by omega) (by omega)]
  generalize yearOfEra ((n + epoch) % 146097) = y at *
  have era : (y + (n + epoch) / 146097 * 400) / 400 = (n + epoch) / 146097 := by omega
  have year : (y + (n + epoch) / 146097 * 400) % 400 = y := by omega
  rw [era, year]
  omega

end PageTest.Date
