import FilterAlgebra.Calendar
import Mathlib.Tactic

namespace FilterAlgebra
namespace Date

attribute [ext] Date
attribute [ext] FromMarch

abbrev IsLeap (y : ℤ) : Prop := y % 4 = 0 ∧ (y % 100 ≠ 0 ∨ y % 400 = 0)

def daysIn (y : ℤ) (month : ℕ) : ℕ :=
  if month = 2 then if IsLeap y then 29 else 28
  else if month = 4 ∨ month = 6 ∨ month = 9 ∨ month = 11 then 30 else 31

structure Valid (d : Date) : Prop where
  month_pos : 1 ≤ d.month
  month_le : d.month ≤ 12
  day_pos : 1 ≤ d.day
  day_le : d.day ≤ daysIn d.year d.month

theorem Valid.day_le_31 {d : Date} (hd : d.Valid) : d.day ≤ 31 := by
  apply hd.day_le.trans
  unfold daysIn
  split
  · split <;> omega
  · split <;> omega

/-- Year by year, then month by month, then day by day. -/
def Before (d d' : Date) : Prop :=
  d.year < d'.year ∨ d.year = d'.year ∧
    (d.month < d'.month ∨ d.month = d'.month ∧ d.day < d'.day)

namespace FromMarch

def start (y : ℤ) : ℤ := 365 * y + y / 4 - y / 100 + y / 400

/-- A year from March ends with the February of the next year. -/
def length (y : ℤ) : ℕ := if IsLeap (y + 1) then 366 else 365

theorem length_bounds (y : ℤ) : 365 ≤ length y ∧ length y ≤ 366 := by
  unfold length
  split <;> omega

theorem start_add_one (y : ℤ) : start (y + 1) = start y + length y := by
  unfold start length
  split <;> omega

theorem start_mono {y y' : ℤ} (h : y ≤ y') : start y ≤ start y' := by
  unfold start
  omega

theorem toDayNumber_eq (y : FromMarch) : y.toDayNumber = start y.year + y.day := rfl

/-- A quotient that is cut off at three leaves less than the divisor, unless it is three. -/
theorem capped_div {k : ℕ} (hk : 0 < k) (r q : ℕ) (hq : q = if r / k < 3 then r / k else 3) :
    q ≤ 3 ∧ k * q ≤ r ∧ (r < k * q + k ∨ q = 3) := by
  have hle : k * (r / k) ≤ r := Nat.mul_div_le r k
  have hlt : r < k * (r / k) + k := Nat.lt_mul_div_succ r hk
  split at hq
  · subst hq
    omega
  · have : k * 3 ≤ k * (r / k) := Nat.mul_le_mul_left k (by omega)
    subst hq
    omega

/-- The cycle, century, span and year that a day number falls into, and what is left. The last
year of a span is the long one, unless a century that is not the last of its cycle ends with it. -/
theorem split_ofDayNumber (n : ℤ) : ∃ c s y : ℕ,
    c ≤ 3 ∧ s ≤ 24 ∧ y ≤ 3 ∧
    (ofDayNumber n).year = 400 * (n / 146097) + (100 * c + 4 * s + y : ℕ) ∧
    n = 146097 * (n / 146097) + (36524 * c + 1461 * s + 365 * y + (ofDayNumber n).day : ℕ) ∧
    ((ofDayNumber n).day < 365 ∨ (ofDayNumber n).day = 365 ∧ y = 3 ∧ (s < 24 ∨ c = 3)) := by
  unfold ofDayNumber
  dsimp only
  have hcycle : (n % 146097).toNat < 146097 := by omega
  have hn : n = 146097 * (n / 146097) + (n % 146097).toNat := by omega
  generalize (n % 146097).toNat = inCycle at hcycle hn ⊢
  generalize hc : (if inCycle / 36524 < 3 then inCycle / 36524 else 3) = c
  have hcentury := capped_div (by decide) _ _ hc.symm
  generalize hinSpan : inCycle - 36524 * c - 1461 * ((inCycle - 36524 * c) / 1461) = inSpan
  generalize hy : (if inSpan / 365 < 3 then inSpan / 365 else 3) = y
  have hyear := capped_div (by decide) _ _ hy.symm
  refine ⟨c, (inCycle - 36524 * c) / 1461, y, hcentury.1, ?_, hyear.1, rfl, ?_, ?_⟩
  · omega
  · omega
  · omega

theorem toDayNumber_ofDayNumber (n : ℤ) : (ofDayNumber n).toDayNumber = n := by
  obtain ⟨c, s, y, hc, hs, hy, hyear, hn, -⟩ := split_ofDayNumber n
  have hspans : (ofDayNumber n).year / 4 = 100 * (n / 146097) + (25 * c + s : ℕ) := by omega
  have hcenturies : (ofDayNumber n).year / 100 = 4 * (n / 146097) + c := by omega
  have hcycles : (ofDayNumber n).year / 400 = n / 146097 := by omega
  rw [toDayNumber_eq, start, hspans, hcenturies, hcycles]
  omega

theorem day_ofDayNumber (n : ℤ) : (ofDayNumber n).day < length (ofDayNumber n).year := by
  obtain ⟨c, s, y, hc, hs, hy, hyear, -, hday⟩ := split_ofDayNumber n
  unfold length
  split
  · omega
  · next hleap =>
    rw [hyear] at hleap
    omega

/-- The year of a day number is the one that has started and is not over. -/
theorem year_le {y y' : FromMarch} (h : y.toDayNumber ≤ y'.toDayNumber)
    (hy' : y'.day < length y'.year) : y.year ≤ y'.year := by
  by_contra hlt
  have hstart : start (y'.year + 1) ≤ start y.year := start_mono (by omega)
  rw [start_add_one] at hstart
  rw [toDayNumber_eq, toDayNumber_eq] at h
  omega

theorem toDayNumber_inj {y y' : FromMarch} (hy : y.day < length y.year)
    (hy' : y'.day < length y'.year) (h : y.toDayNumber = y'.toDayNumber) : y = y' := by
  have hyear : y.year = y'.year :=
    Int.le_antisymm (year_le (Int.le_of_eq h) hy') (year_le (Int.le_of_eq h.symm) hy)
  rw [toDayNumber_eq, toDayNumber_eq, hyear] at h
  ext
  · exact hyear
  · omega

end FromMarch

def daysBefore (k : ℕ) : ℕ := (153 * k + 2) / 5

def inMonth (y : ℤ) (k day : ℕ) : Date :=
  if k < 10 then ⟨y, k + 3, day⟩ else ⟨y + 1, k - 9, day⟩

theorem ofFromMarch_eq (y : FromMarch) :
    ofFromMarch y = inMonth y.year ((5 * y.day + 2) / 153)
      (y.day - daysBefore ((5 * y.day + 2) / 153) + 1) := rfl

theorem day_inMonth (y : ℤ) (k day : ℕ) : (inMonth y k day).day = day := by
  unfold inMonth
  split <;> rfl

theorem months_inMonth (y : ℤ) {k : ℕ} (hk : k ≤ 11) (day : ℕ) :
    12 * (inMonth y k day).year + (inMonth y k day).month = 12 * y + k + 3 ∧
      1 ≤ (inMonth y k day).month ∧ (inMonth y k day).month ≤ 12 := by
  unfold inMonth
  split <;> dsimp only <;> omega

theorem exists_inMonth {d : Date} (hd : d.Valid) : ∃ y, ∃ k ≤ 11, d = inMonth y k d.day := by
  have hpos := hd.month_pos
  have hle := hd.month_le
  by_cases h : d.month < 3
  · refine ⟨d.year - 1, d.month + 9, by omega, ?_⟩
    rw [inMonth, if_neg (by omega)]
    simp
  · refine ⟨d.year, d.month - 3, by omega, ?_⟩
    rw [inMonth, if_pos (by omega), Nat.sub_add_cancel (by omega)]

theorem daysBefore_add_daysIn (y : ℤ) {k : ℕ} (hk : k ≤ 11) (day : ℕ) :
    daysBefore k + daysIn (inMonth y k day).year (inMonth y k day).month =
      if k = 11 then FromMarch.length y else daysBefore (k + 1) := by
  unfold FromMarch.length
  interval_cases k
  case «11» =>
    change 337 + (if IsLeap (y + 1) then 29 else 28) = if IsLeap (y + 1) then 366 else 365
    split <;> rfl
  all_goals rfl

theorem valid_inMonth {y : ℤ} {k day : ℕ} (hk : k ≤ 11) :
    (inMonth y k day).Valid ↔ 1 ≤ day ∧
      daysBefore k + day ≤ if k = 11 then FromMarch.length y else daysBefore (k + 1) := by
  have hday := day_inMonth y k day
  obtain ⟨-, hmonth⟩ := months_inMonth y hk day
  rw [← daysBefore_add_daysIn y hk day]
  constructor
  · intro h
    have hpos := h.day_pos
    have hle := h.day_le
    omega
  · intro h
    exact ⟨hmonth.1, hmonth.2, by omega, by omega⟩

theorem toFromMarch_inMonth {y : ℤ} {k : ℕ} (hk : k ≤ 11) (day : ℕ) :
    (inMonth y k day).toFromMarch = ⟨y, daysBefore k + day - 1⟩ := by
  unfold inMonth toFromMarch
  split <;> dsimp only
  · have : (k + 3 + 9) % 12 = k := by omega
    rw [if_neg (by omega), this, daysBefore]
  · have : (k - 9 + 9) % 12 = k := by omega
    rw [if_pos (by omega), this, daysBefore, Int.add_sub_cancel]

variable {y : FromMarch}

theorem month_le (hy : y.day < FromMarch.length y.year) : (5 * y.day + 2) / 153 ≤ 11 := by
  have hlength := FromMarch.length_bounds y.year
  omega

theorem valid_ofFromMarch (hy : y.day < FromMarch.length y.year) : (ofFromMarch y).Valid := by
  rw [ofFromMarch_eq, valid_inMonth (month_le hy)]
  unfold daysBefore
  split <;> omega

theorem toFromMarch_ofFromMarch (hy : y.day < FromMarch.length y.year) :
    (ofFromMarch y).toFromMarch = y := by
  rw [ofFromMarch_eq, toFromMarch_inMonth (month_le hy)]
  have hday : daysBefore ((5 * y.day + 2) / 153) ≤ y.day := by
    unfold daysBefore
    omega
  ext
  · rfl
  · dsimp only
    omega

theorem day_toFromMarch {d : Date} (hd : d.Valid) :
    d.toFromMarch.day < FromMarch.length d.toFromMarch.year := by
  obtain ⟨y, k, hk, h⟩ := exists_inMonth hd
  generalize d.day = day at h
  subst h
  have hdays := (valid_inMonth hk).1 hd
  have hlength := FromMarch.length_bounds y
  rw [toFromMarch_inMonth hk]
  dsimp only
  unfold daysBefore at hdays ⊢
  split at hdays <;> omega

theorem ofFromMarch_toFromMarch {d : Date} (hd : d.Valid) : ofFromMarch d.toFromMarch = d := by
  obtain ⟨y, k, hk, h⟩ := exists_inMonth hd
  generalize d.day = day at h
  subst h
  have hdays := (valid_inMonth hk).1 hd
  have hlength := FromMarch.length_bounds y
  rw [toFromMarch_inMonth hk, ofFromMarch_eq]
  dsimp only
  have hmonth : (5 * (daysBefore k + day - 1) + 2) / 153 = k := by
    unfold daysBefore at hdays ⊢
    split at hdays <;> omega
  have hday : daysBefore k + day - 1 - daysBefore k + 1 = day := by omega
  rw [hmonth, hday]

/-- The day of a day number is the one day of the calendar that has it. -/
theorem ofDayNumber_eq_iff {n : ℤ} {d : Date} :
    ofDayNumber n = d ↔ d.Valid ∧ d.toDayNumber = n := by
  have hn := FromMarch.day_ofDayNumber n
  constructor
  · rintro rfl
    refine ⟨valid_ofFromMarch hn, ?_⟩
    rw [toDayNumber, ofDayNumber, toFromMarch_ofFromMarch hn, FromMarch.toDayNumber_ofDayNumber]
  · rintro ⟨hd, rfl⟩
    have hsame : FromMarch.ofDayNumber d.toDayNumber = d.toFromMarch :=
      FromMarch.toDayNumber_inj (FromMarch.day_ofDayNumber _) (day_toFromMarch hd)
        (FromMarch.toDayNumber_ofDayNumber _)
    rw [ofDayNumber, hsame, ofFromMarch_toFromMarch hd]

example : ofDayNumber (-1) = ⟨0, 2, 29⟩ := by decide

theorem valid_ofDayNumber (n : ℤ) : (ofDayNumber n).Valid := (ofDayNumber_eq_iff.1 rfl).1

theorem toDayNumber_ofDayNumber (n : ℤ) : (ofDayNumber n).toDayNumber = n :=
  (ofDayNumber_eq_iff.1 rfl).2

theorem before_of_toDayNumber_lt {d d' : Date} (hd : d.Valid) (hd' : d'.Valid)
    (h : d.toDayNumber < d'.toDayNumber) : d.Before d' := by
  have hyear := FromMarch.year_le (Int.le_of_lt h) (day_toFromMarch hd')
  rw [toDayNumber, toDayNumber, FromMarch.toDayNumber_eq, FromMarch.toDayNumber_eq] at h
  obtain ⟨y, k, hk, hsplit⟩ := exists_inMonth hd
  obtain ⟨y', k', hk', hsplit'⟩ := exists_inMonth hd'
  generalize d.day = day at hsplit
  generalize d'.day = day' at hsplit'
  subst hsplit hsplit'
  rw [toFromMarch_inMonth hk, toFromMarch_inMonth hk'] at h hyear
  dsimp only at h hyear
  obtain ⟨hmonths, hmonth⟩ := months_inMonth y hk day
  obtain ⟨hmonths', hmonth'⟩ := months_inMonth y' hk' day'
  have hdays := (valid_inMonth hk).1 hd
  have hdays' := (valid_inMonth hk').1 hd'
  unfold Before
  rw [day_inMonth, day_inMonth]
  rcases Int.lt_or_eq_of_le hyear with hlt | rfl
  · omega
  -- In the same year from March, an earlier day is in an earlier month or earlier in the same.
  have hwithin : k < k' ∨ k = k' ∧ day < day' := by
    unfold daysBefore at h hdays hdays'
    split at hdays' <;> omega
  omega

/-- Later day numbers are later days. -/
theorem before_ofDayNumber {n n' : ℤ} (h : n < n') :
    (ofDayNumber n).Before (ofDayNumber n') := by
  apply before_of_toDayNumber_lt (valid_ofDayNumber n) (valid_ofDayNumber n')
  rwa [toDayNumber_ofDayNumber, toDayNumber_ofDayNumber]

end Date
end FilterAlgebra
