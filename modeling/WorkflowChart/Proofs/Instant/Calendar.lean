import WorkflowChart.Instant.Calendar

/-!
# The date of a count of days

Every count of days has a date, and the count of this date is the one that it was made from. In the
four hundred years after which the calendar repeats, a day lies in a century, there in a group of
four years, and there in a year.

* **`Date.exists_year`**: the year of a day, and that only leap years have a day more.
* **`Date.isValid_ofDayNumber`**: there is a date for every count.
* **`Date.dayNumber_ofDayNumber`**: it has this count.
-/

namespace WorkflowChart.Date

/-- A day of the four hundred years lies in a century, a group of four years and a day of the group.
The last group of a century lacks its last day, other than in the last century. -/
theorem exists_group {days : Int} (hnonneg : 0 ≤ days) (hlt : days < daysInCycle) :
    ∃ century group day, days = 36524 * century + 1461 * group + day ∧ 0 ≤ century ∧ century ≤ 3 ∧
      0 ≤ group ∧ group ≤ 24 ∧ 0 ≤ day ∧ day ≤ 1460 ∧ (group = 24 → day = 1460 → century = 3) := by
  rw [daysInCycle] at hlt
  by_cases hlast : days = 146096
  · exact ⟨3, 24, 1460, by omega⟩
  · exact ⟨days / 36524, days % 36524 / 1461, days % 36524 % 1461, by omega⟩

/-- The day lies in the year that is computed for it. It has no day more than 365 before it in this
year, and that many only if the year that comes next has a leap day: years count from March on. -/
theorem exists_year {days : Int} (hnonneg : 0 ≤ days) (hlt : days < daysInCycle) :
    ∃ year inYear, (days - days / 1460 + days / 36524 - days / 146096) / 365 = year ∧
      days = daysBeforeYear year + inYear ∧ 0 ≤ year ∧ year ≤ 399 ∧ 0 ≤ inYear ∧
      (inYear ≤ 364 ∨ inYear = 365 ∧ isLeapYear (year + 1) = true) := by
  obtain ⟨century, group, day, hdays, hc0, hc3, hg0, hg24, hd0, hd1460, hlast⟩ :=
    exists_group hnonneg hlt
  -- the year in the group; the last one may have a day more
  obtain ⟨year, hy0, hy3, hlow, hhigh⟩ : ∃ year : Int, 0 ≤ year ∧ year ≤ 3 ∧ 365 * year ≤ day ∧
      (day ≤ 365 * year + 364 ∨ year = 3 ∧ day = 1460) := by
    by_cases h : day = 1460
    · exact ⟨3, by omega⟩
    · exact ⟨day / 365, by omega⟩
  refine ⟨100 * century + 4 * group + year, day - 365 * year, ?_, ?_, by omega, by omega, by omega,
    ?_⟩
  · have hcentury : days / 36524 - days / 146096 = century := by
      by_cases h : days = 146096
      · omega
      · have hsmall : days / 146096 = 0 := by omega
        have hbig : days / 36524 = century := by omega
        omega
    -- the groups before the day are counted by their days but for the leap days, or one more
    have hgroups : days / 1460 = 25 * century + group ∧ 24 * century + group + day < 1460 ∨
        days / 1460 = 25 * century + group + 1 ∧ 1460 ≤ 24 * century + group + day := by
      by_cases h : 24 * century + group + day < 1460
      · exact Or.inl (by omega)
      · exact Or.inr (by omega)
    rcases hgroups with ⟨hgroups, hfew⟩ | ⟨hgroups, hmany⟩ <;> omega
  · rw [daysBeforeYear]
    omega
  · rcases hhigh with h | ⟨rfl, rfl⟩
    · exact Or.inl (by omega)
    · refine Or.inr ⟨by omega, ?_⟩
      rw [isLeapYear]
      simp only [decide_eq_true_eq]
      omega

/-- A day of a year lies in the month that is computed for it, before the next month begins. -/
theorem exists_month {inYear : Int} (hnonneg : 0 ≤ inYear) (hle : inYear ≤ 365) :
    ∃ month day, (5 * inYear + 2) / 153 = month ∧ inYear = daysBeforeMonth month + day ∧
      0 ≤ month ∧ month ≤ 11 ∧ 0 ≤ day ∧ inYear < daysBeforeMonth (month + 1) := by
  refine ⟨(5 * inYear + 2) / 153, inYear - daysBeforeMonth ((5 * inYear + 2) / 153), rfl, by omega,
    by omega, by omega, ?_, ?_⟩
  · rw [daysBeforeMonth]
    omega
  · rw [daysBeforeMonth]
    omega

/-- The date of a count, told by the cycle, the year in it, the month and the day. -/
theorem exists_ofDayNumber (number : Int) : ∃ cycle year month day inYear : Int,
    number = marchOfYearZero + daysInCycle * cycle + daysBeforeYear year + inYear ∧
      inYear = daysBeforeMonth month + day ∧ 0 ≤ year ∧ year ≤ 399 ∧ 0 ≤ month ∧ month ≤ 11 ∧
      0 ≤ day ∧ inYear < daysBeforeMonth (month + 1) ∧
      (inYear ≤ 364 ∨ inYear = 365 ∧ isLeapYear (year + 1) = true) ∧
      ofDayNumber number =
        if month < 10 then ⟨cycle * 400 + year, (month + 3).toNat, (day + 1).toNat⟩
        else ⟨cycle * 400 + year + 1, (month - 9).toNat, (day + 1).toNat⟩ := by
  obtain ⟨days, hnumber⟩ : ∃ days, number - marchOfYearZero = days := ⟨_, rfl⟩
  have hsplit : days % daysInCycle + daysInCycle * (days / daysInCycle) = days :=
    Int.emod_add_mul_ediv days daysInCycle
  obtain ⟨year, inYear, hyear, hinCycle, hy0, hy399, hi0, hleap⟩ :=
    exists_year (Int.emod_nonneg days (by decide)) (Int.emod_lt_of_pos days (by decide))
  obtain ⟨month, day, hmonth, hinYear, hm0, hm11, hd0, hnext⟩ :=
    exists_month hi0 (by rcases hleap with h | ⟨h, -⟩ <;> omega)
  refine ⟨days / daysInCycle, year, month, day, inYear, by omega, hinYear, hy0, hy399, hm0, hm11,
    hd0, hnext, hleap, ?_⟩
  have hrest : days % daysInCycle - daysBeforeYear year = inYear := by omega
  have hday : inYear - daysBeforeMonth month = day := by omega
  rw [ofDayNumber]
  simp only [hnumber, hyear, hrest, hmonth, hday]

/-- **The date of a count has this count.** -/
theorem dayNumber_ofDayNumber (number : Int) : dayNumber (ofDayNumber number) = number := by
  obtain ⟨cycle, year, month, day, inYear, hnumber, hinYear, hy0, hy399, hm0, hm11, hd0, -, -,
    hdate⟩ := exists_ofDayNumber number
  have hyear : (cycle * 400 + year) % 400 = year := by omega
  have hcycle : (cycle * 400 + year) / 400 = cycle := by omega
  have hday : (((day + 1).toNat : Int) - 1) = day := by omega
  rw [hdate]
  by_cases h : month < 10
  · have hlate : ¬ (month + 3).toNat ≤ 2 := by omega
    have hmonth : (((month + 3).toNat : Int) - 3) = month := by omega
    rw [if_pos h, dayNumber]
    simp only [hlate, if_false, hmonth, hyear, hcycle, hday]
    omega
  · have hearly : (month - 9).toNat ≤ 2 := by omega
    have hmonth : (((month - 9).toNat : Int) + 9) = month := by omega
    have hprevious : cycle * 400 + year + 1 - 1 = cycle * 400 + year := by omega
    rw [if_neg h, dayNumber]
    simp only [hearly, if_true, hmonth, hprevious, hyear, hcycle, hday]
    omega

/-- A year has a leap day just where the years that are whole cycles away have one. -/
theorem isLeapYear_add_cycles (cycle year : Int) :
    isLeapYear (cycle * 400 + year) = isLeapYear year := by
  rw [isLeapYear, isLeapYear, decide_eq_decide]
  omega

/-- No month has more than 31 days. -/
theorem daysInMonth_le (year : Int) (month : Nat) : daysInMonth year month ≤ 31 := by
  rw [daysInMonth.eq_def]
  split
  · split <;> decide
  all_goals decide

/-- A month ends before the next one begins; February ends with the year that began in March. -/
theorem day_le_daysInMonth (year : Int) {month day : Int} (hmonth : 0 ≤ month ∧ month ≤ 11)
    (hnext : daysBeforeMonth month + day < daysBeforeMonth (month + 1))
    (hlast : month = 11 → daysBeforeMonth month + day ≤ 364 ∨
      daysBeforeMonth month + day = 365 ∧ isLeapYear year = true) :
    (day + 1).toNat ≤ daysInMonth year (if month < 10 then month + 3 else month - 9).toNat := by
  simp only [daysBeforeMonth] at hnext hlast
  obtain rfl | rfl | rfl | rfl | rfl | rfl | rfl | rfl | rfl | rfl | rfl | rfl : month = 0 ∨
      month = 1 ∨ month = 2 ∨ month = 3 ∨ month = 4 ∨ month = 5 ∨ month = 6 ∨ month = 7 ∨
      month = 8 ∨ month = 9 ∨ month = 10 ∨ month = 11 := by omega
  case inr.inr.inr.inr.inr.inr.inr.inr.inr.inr.inr =>
    show (day + 1).toNat ≤ if isLeapYear year then 29 else 28
    rcases hlast rfl with h | ⟨h, hleap⟩
    · split <;> omega
    · rw [if_pos hleap]
      omega
  all_goals
    first
    | show (day + 1).toNat ≤ 31; omega
    | show (day + 1).toNat ≤ 30; omega

/-- **There is a date for every count.** -/
theorem isValid_ofDayNumber (number : Int) : (ofDayNumber number).isValid = true := by
  obtain ⟨cycle, year, month, day, inYear, -, rfl, -, -, hm0, hm11, hd0, hnext, hleap, hdate⟩ :=
    exists_ofDayNumber number
  rw [hdate]
  by_cases h : month < 10
  · have hle := day_le_daysInMonth (cycle * 400 + year) ⟨hm0, hm11⟩ hnext (by omega)
    rw [if_pos h] at hle
    rw [if_pos h, isValid]
    simp only [decide_eq_true_eq]
    exact ⟨by omega, by omega, by omega, hle⟩
  · have hle := day_le_daysInMonth (cycle * 400 + year + 1) ⟨hm0, hm11⟩ hnext fun _ => by
      rw [Int.add_assoc, isLeapYear_add_cycles]
      exact hleap
    rw [if_neg h] at hle
    rw [if_neg h, isValid]
    simp only [decide_eq_true_eq]
    exact ⟨by omega, by omega, by omega, hle⟩

end WorkflowChart.Date
