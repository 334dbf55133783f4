import RoomHub.Calendar

/-!
# Dates and days

The days of the proleptic Gregorian calendar are counted without a gap: the date after a
date is one day further (`toDays_next`), which with the first of 1970 at zero fixes the
number of every date. Turning a day into its date is the inverse:

> `toDays_ofDays`: the date of a day has the number of the day;
> `isValid_ofDays`: it is a date of the calendar.

An era of 400 years is cut into centuries, these into cycles of four years, these into
years that begin in March. Only the last year of a cycle has a 366th day, and only the last
cycle of the last century has it too (`exists_parts`).
-/

namespace RoomHub.Calendar

/-! ## The calendar -/

/-- Whether a year has a leap day. -/
def isLeap (y : Int) : Bool := y % 4 = 0 && (y % 100 ≠ 0 || y % 400 = 0)

/-- The number of days of a month. -/
def monthLength (y : Int) (m : Nat) : Nat :=
  if m = 2 then (if isLeap y then 29 else 28)
  else if m = 4 ∨ m = 6 ∨ m = 9 ∨ m = 11 then 30 else 31

namespace Date

/-- Whether a date is in the calendar. -/
def isValid (d : Date) : Bool :=
  1 ≤ d.month && d.month ≤ 12 && 1 ≤ d.day && d.day ≤ monthLength d.year d.month

/-- The date of the next day. -/
def next (d : Date) : Date :=
  if d.day < monthLength d.year d.month then { d with day := d.day + 1 }
  else if d.month < 12 then ⟨d.year, d.month + 1, 1⟩
  else ⟨d.year + 1, 1, 1⟩

/-- A date is valid when its month is one of twelve and has that day. -/
theorem isValid_iff {d : Date} :
    d.isValid = true ↔ (1 ≤ d.month ∧ d.month ≤ 12) ∧ 1 ≤ d.day ∧
      d.day ≤ monthLength d.year d.month := by
  unfold isValid
  simp only [Bool.and_eq_true, decide_eq_true_eq, and_assoc]

end Date

/-- Every fourth year has a leap day, but of the last years of the centuries only every fourth. -/
theorem isLeap_iff {y : Int} :
    isLeap y = true ↔ y % 4 = 0 ∧ (y % 100 ≠ 0 ∨ y % 400 = 0) := by
  unfold isLeap
  simp only [Bool.and_eq_true, Bool.or_eq_true, decide_eq_true_eq]

/-! ## Counting from March -/

/-- The number of a month in the year that begins in March. -/
def marchMonth (m : Nat) : Nat := if m > 2 then m - 3 else m + 9

/-- The year that begins in March and holds a month of a year. -/
def marchYear (y : Int) (m : Nat) : Int := if m ≤ 2 then y - 1 else y

/-- The days before the first of March of a year, from that of the year 0. -/
def daysBeforeYear (y : Int) : Int := 365 * y + y / 4 - y / 100 + y / 400

/-- The days before a month of the year that begins in March. -/
def daysBeforeMonth (m : Nat) : Nat := (153 * m + 2) / 5

/-- Days are counted from the first of March, behind which every leap day comes last. -/
theorem toDays_eq (y : Int) (m day : Nat) :
    toDays ⟨y, m, day⟩ = daysBeforeYear (marchYear y m)
      + (daysBeforeMonth (marchMonth m) + day - 1 : Nat) - epochOffset := by
  show marchYear y m / 400 * 146097 + _ - epochOffset = _
  unfold daysBeforeYear daysBeforeMonth
  dsimp only
  rw [show (if m > 2 then m - 3 else m + 9) = marchMonth m from rfl,
    show (if m ≤ 2 then y - 1 else y) = marchYear y m from rfl]
  omega

/-- A leap year has one day more between two firsts of March. -/
theorem daysBeforeYear_succ (y : Int) :
    daysBeforeYear y = daysBeforeYear (y - 1) + (if isLeap y then 366 else 365) := by
  unfold daysBeforeYear
  split
  next hleap =>
    have hdiv := isLeap_iff.mp hleap
    omega
  next hleap =>
    rw [isLeap_iff] at hleap
    omega

/-- Every month but February is as long as the next one is behind it. -/
theorem daysBeforeMonth_succ {m : Nat} (y : Int) (hlow : 1 ≤ m) (hhigh : m ≤ 12) (hm : m ≠ 2) :
    daysBeforeMonth (marchMonth (m % 12 + 1))
      = daysBeforeMonth (marchMonth m) + monthLength y m := by
  have hcases : m = 1 ∨ m = 3 ∨ m = 4 ∨ m = 5 ∨ m = 6 ∨ m = 7 ∨ m = 8 ∨ m = 9 ∨ m = 10 ∨
      m = 11 ∨ m = 12 := by omega
  rcases hcases with rfl | rfl | rfl | rfl | rfl | rfl | rfl | rfl | rfl | rfl | rfl <;> rfl

/-- The date after a date is one day further. -/
theorem toDays_next {d : Date} (hd : d.isValid = true) : toDays d.next = toDays d + 1 := by
  obtain ⟨y, m, day⟩ := d
  obtain ⟨⟨hlow, hhigh⟩, hday, hlen⟩ := Date.isValid_iff.mp hd
  dsimp only at hlow hhigh hday hlen
  unfold Date.next
  dsimp only
  by_cases hlt : day < monthLength y m
  · rw [if_pos hlt, toDays_eq, toDays_eq]
    omega
  · have hlast : day = monthLength y m := by omega
    rw [if_neg hlt]
    by_cases hm : m = 2
    · -- the year of March ends with its February, and with the leap day if there is one
      subst hm
      have hyear := daysBeforeYear_succ y
      have hlength : monthLength y 2 = if isLeap y then 29 else 28 := rfl
      have hmarch : toDays ⟨y, 3, 1⟩ = daysBeforeYear y - epochOffset := by
        rw [toDays_eq]
        exact congrArg (· - epochOffset) (Int.add_zero _)
      have hfebruary : toDays ⟨y, 2, day⟩
          = daysBeforeYear (y - 1) + (337 + day - 1 : Nat) - epochOffset := toDays_eq y 2 day
      rw [hlength] at hlast
      rw [if_pos (by decide), hmarch, hfebruary, hyear]
      split at hlast
      next hleap => rw [if_pos hleap]; omega
      next hleap => rw [if_neg hleap]; omega
    · have hmonth := daysBeforeMonth_succ y hlow hhigh hm
      by_cases hend : m < 12
      · have hyear : marchYear y (m + 1) = marchYear y m := by
          unfold marchYear
          split <;> split <;> omega
        rw [Nat.mod_eq_of_lt hend] at hmonth
        rw [if_pos hend, toDays_eq, toDays_eq, hmonth, hyear]
        omega
      · obtain rfl : m = 12 := by omega
        have hyear : marchYear (y + 1) 1 = marchYear y 12 := Int.add_sub_cancel y 1
        rw [show 12 % 12 + 1 = 1 from rfl] at hmonth
        rw [if_neg hend, toDays_eq, toDays_eq, hmonth, hyear]
        omega

/-! ## From a day to its date -/

/-- A day of an era falls on a day of a year of a cycle of a century. Only the last year of
a cycle is a day longer, and only the last cycle of the era where a century ends. -/
theorem exists_parts {d : Nat} (hd : d < 146097) :
    ∃ c q y k, c ≤ 3 ∧ q ≤ 24 ∧ y ≤ 3 ∧ k ≤ 365 ∧ (k = 365 → y = 3 ∧ (q = 24 → c = 3)) ∧
      d = 36524 * c + 1461 * q + 365 * y + k := by
  have hcentury : min (d / 36524) 3 ≤ 3 := Nat.min_le_right _ _
  generalize hc : min (d / 36524) 3 = c at hcentury
  generalize hq : min ((d - 36524 * c) / 1461) 24 = q
  generalize hy : min ((d - 36524 * c - 1461 * q) / 365) 3 = y
  exact ⟨c, q, y, d - 36524 * c - 1461 * q - 365 * y, hcentury, by omega, by omega, by omega,
    by omega, by omega⟩

/-- The year of a day of an era is found among its parts. -/
theorem yearOfEra_eq {c q y k : Nat} (hc : c ≤ 3) (hq : q ≤ 24) (hy : y ≤ 3) (hk : k ≤ 365)
    (hleap : k = 365 → y = 3 ∧ (q = 24 → c = 3)) :
    let d := 36524 * c + 1461 * q + 365 * y + k
    (d - d / 1460 + d / 36524 - d / 146096) / 365 = 100 * c + 4 * q + y := by
  intro d
  have hcentury : d / 36524 = c + (if k = 365 ∧ q = 24 then 1 else 0) := by split <;> omega
  have hera : d / 146096 = (if k = 365 ∧ q = 24 then 1 else 0) := by split <;> omega
  have hday : d / 1460 = 25 * c + q + (24 * c + q + 365 * y + k) / 1460 := by omega
  have hover : (24 * c + q + 365 * y + k) / 1460 ≤ 1 := by omega
  rw [hcentury, hera, hday]
  split <;> omega

/-- The days before a year of an era are those of its centuries, cycles and years. -/
theorem daysBeforeYear_parts {c q y : Nat} (hc : c ≤ 3) (hq : q ≤ 24) (hy : y ≤ 3) (era : Int) :
    daysBeforeYear ((100 * c + 4 * q + y : Nat) + 400 * era)
      = (36524 * c + 1461 * q + 365 * y : Nat) + 146097 * era := by
  have hfour : ((100 * c + 4 * q + y : Nat) + 400 * era) / 4 = 25 * c + q + 100 * era := by omega
  have hhundred : ((100 * c + 4 * q + y : Nat) + 400 * era) / 100 = c + 4 * era := by omega
  have hfourHundred : ((100 * c + 4 * q + y : Nat) + 400 * era) / 400 = era := by omega
  unfold daysBeforeYear
  omega

/-- The date of a day of a year that begins in March. -/
def ofYearDay (y : Int) (k : Nat) : Date :=
  let m := (5 * k + 2) / 153
  let month := if m < 10 then m + 3 else m - 9
  ⟨y + (if month ≤ 2 then 1 else 0), month, k - daysBeforeMonth m + 1⟩

/-- Every day is a day of a year that begins in March. A 366th day is a leap day. -/
theorem exists_yearDay (days : Int) :
    ∃ y k, ofDays days = ofYearDay y k ∧ days = daysBeforeYear y + (k : Nat) - epochOffset ∧
      k ≤ 365 ∧ (k = 365 → isLeap (y + 1) = true) := by
  generalize hshift : days + epochOffset = shifted
  have hera : (shifted % 146097).toNat < 146097 := by omega
  obtain ⟨c, q, y, k, hc, hq, hy, hk, hleap, hd⟩ := exists_parts hera
  have hyear := yearOfEra_eq hc hq hy hk hleap
  refine ⟨(100 * c + 4 * q + y : Nat) + 400 * (shifted / 146097), k, ?_, ?_, hk, fun hlong => ?_⟩
  · have hfour : (100 * c + 4 * q + y) / 4 = 25 * c + q := by omega
    have hhundred : (100 * c + 4 * q + y) / 100 = c := by omega
    have hday : 36524 * c + 1461 * q + 365 * y + k - (365 * (100 * c + 4 * q + y)
        + (25 * c + q) - c) = k := by omega
    unfold ofDays
    simp only [hshift, hd, hyear, hfour, hhundred, hday]
    rfl
  · rw [daysBeforeYear_parts hc hq hy]
    omega
  · obtain ⟨rfl, hcentury⟩ := hleap hlong
    rw [isLeap_iff]
    clear hyear
    omega

section YearDay

variable {k : Nat} (hk : k ≤ 365)

include hk

/-- The month of the day is found from the day of the year by one division. -/
theorem marchMonth_ofYearDay (y : Int) :
    marchMonth (ofYearDay y k).month = (5 * k + 2) / 153 := by
  unfold ofYearDay marchMonth
  dsimp only
  split <;> split <;> omega

/-- The date of a day is in the year, counted from March, that the day was given with. -/
theorem marchYear_ofYearDay (y : Int) :
    marchYear (ofYearDay y k).year (ofYearDay y k).month = y := by
  unfold ofYearDay marchYear
  dsimp only
  split <;> omega

end YearDay

/-- The month of a day does not begin after it. -/
theorem daysBeforeMonth_le (k : Nat) : daysBeforeMonth ((5 * k + 2) / 153) ≤ k := by
  unfold daysBeforeMonth
  omega

/-- The date of a day has the number of the day. -/
theorem toDays_ofDays (days : Int) : toDays (ofDays days) = days := by
  obtain ⟨y, k, hdate, hdays, hk, -⟩ := exists_yearDay days
  have hmonth := daysBeforeMonth_le k
  have heq := toDays_eq (ofYearDay y k).year (ofYearDay y k).month (ofYearDay y k).day
  rw [marchMonth_ofYearDay hk, marchYear_ofYearDay hk] at heq
  have hday : (ofYearDay y k).day = k - daysBeforeMonth ((5 * k + 2) / 153) + 1 := rfl
  rw [hdate]
  refine heq.trans ?_
  omega

/-- The date of a day is in the calendar. -/
theorem isValid_ofDays (days : Int) : (ofDays days).isValid = true := by
  obtain ⟨y, k, hdate, -, hk, hleap⟩ := exists_yearDay days
  rw [hdate, Date.isValid_iff]
  unfold ofYearDay
  dsimp only
  generalize hm : (5 * k + 2) / 153 = m
  have hbound : m ≤ 11 := by omega
  unfold daysBeforeMonth
  refine ⟨by split <;> omega, by omega, ?_⟩
  by_cases hfebruary : m = 11
  · subst hfebruary
    show k - 337 + 1 ≤ if isLeap (y + 1) then 29 else 28
    by_cases hlong : k = 365
    · rw [if_pos (hleap hlong)]
      omega
    · split <;> omega
  · have hcases : m = 0 ∨ m = 1 ∨ m = 2 ∨ m = 3 ∨ m = 4 ∨ m = 5 ∨ m = 6 ∨ m = 7 ∨ m = 8 ∨
        m = 9 ∨ m = 10 := by omega
    rcases hcases with rfl | rfl | rfl | rfl | rfl | rfl | rfl | rfl | rfl | rfl | rfl <;>
      simp [monthLength] <;> omega

end RoomHub.Calendar
