import Mathlib.Data.Prod.Lex
import Mathlib.Order.Basic
import Mathlib.Order.Lattice

/-!
# Instants and dates

A date is the number of its day, an `Int`, so that a `timedelta` of days is an integer too. An instant is
its date in the local time zone with the microseconds of that day that have gone by: its order is the
order of time, also on the days when the clock is put back.

A date is its ordinal in the proleptic Gregorian calendar, from January 1 of year 1 on. Its year is found by cycles of
400, 100 and 4 years, as `_ord2ymd` does.
-/

namespace Itou.Lib

/-- An instant. `date` is what `timezone.localdate` gives. -/
structure DateTime where
  date : Int
  micros : Nat
  deriving DecidableEq

namespace DateTime

/-- The instant as a pair, under the lexicographic order. -/
def toPair (t : DateTime) : Int ×ₗ ℕ := toLex (t.date, t.micros)

theorem toPair_injective : Function.Injective toPair := by
  rintro ⟨d₁, m₁⟩ ⟨d₂, m₂⟩ h
  simpa [toPair] using h

instance : LinearOrder DateTime := LinearOrder.lift' toPair toPair_injective

theorem lt_iff {a b : DateTime} : a < b ↔ a.date < b.date ∨ a.date = b.date ∧ a.micros < b.micros :=
  Prod.Lex.toLex_lt_toLex

/-- Time does not go back, so its dates do not either. -/
theorem date_le_of_le {a b : DateTime} (h : a ≤ b) : a.date ≤ b.date := by
  rcases lt_or_eq_of_le h with hlt | rfl
  · rcases lt_iff.mp hlt with hd | ⟨hd, _⟩
    · exact hd.le
    · exact hd.le
  · exact le_rfl

end DateTime

namespace Calendar

/-! ## Years -/

def isLeap (year : Int) : Bool := year % 4 = 0 && (year % 100 ≠ 0 || year % 400 = 0)

/-- `_days_before_year`. -/
def daysBeforeYear (year : Int) : Int :=
  (year - 1) * 365 + (year - 1) / 4 - (year - 1) / 100 + (year - 1) / 400

/-- The year of an ordinal, as `_ord2ymd` finds it. -/
def yearOf (ordinal : Int) : Int :=
  let n := ordinal - 1
  let n400 := n / 146097
  let n := n % 146097
  let n100 := n / 36524
  let n := n % 36524
  let n4 := n / 1461
  let n := n % 1461
  let n1 := n / 365
  let year := n400 * 400 + 1 + n100 * 100 + n4 * 4 + n1
  if n1 = 4 ∨ n100 = 4 then year - 1 else year

theorem daysBeforeYear_succ (year : Int) :
    daysBeforeYear (year + 1) = daysBeforeYear year + if isLeap year then 366 else 365 := by
  unfold daysBeforeYear isLeap
  by_cases h4 : year % 4 = 0
  · by_cases h100 : year % 100 = 0
    · by_cases h400 : year % 400 = 0
      · simp only [h4, h100, h400, decide_true, Bool.or_true, Bool.and_true, if_true]
        omega
      · simp [h4, h100, h400]
        omega
    · simp [h4, h100]
      omega
  · simp [h4]
    omega

theorem daysBeforeYear_mono {year year' : Int} (h : year ≤ year') : daysBeforeYear year ≤ daysBeforeYear year' := by
  unfold daysBeforeYear
  omega

theorem daysBeforeYear_lt_iff {year year' : Int} : daysBeforeYear year < daysBeforeYear year' ↔ year < year' := by
  constructor
  · intro h
    by_contra hle
    exact absurd (daysBeforeYear_mono (Int.not_lt.1 hle)) (Int.not_le.2 h)
  · intro h
    have hmono := daysBeforeYear_mono (show year + 1 ≤ year' by omega)
    rw [daysBeforeYear_succ] at hmono
    split at hmono <;> omega

/-- The days before a year, by its place in the cycles. -/
theorem daysBeforeYear_cycles {a b c d : Int} (hb : 0 ≤ b ∧ b ≤ 3) (hc : 0 ≤ c ∧ c ≤ 24) (hd : 0 ≤ d ∧ d ≤ 3) :
    daysBeforeYear (400 * a + 100 * b + 4 * c + d + 1) = 146097 * a + 36524 * b + 1461 * c + 365 * d := by
  unfold daysBeforeYear
  omega

theorem isLeap_iff {year : Int} : isLeap year = true ↔ year % 4 = 0 ∧ (year % 100 ≠ 0 ∨ year % 400 = 0) := by
  simp [isLeap]

theorem daysBeforeYear_succ_of_isLeap (year : Int) (h : year % 4 = 0 ∧ (year % 100 ≠ 0 ∨ year % 400 = 0)) :
    daysBeforeYear (year + 1) = daysBeforeYear year + 366 := by
  rw [daysBeforeYear_succ, isLeap_iff.2 h, if_pos rfl]

/-- A year has at least 365 days. -/
theorem daysBeforeYear_add_le (year : Int) : daysBeforeYear year + 365 ≤ daysBeforeYear (year + 1) := by
  rw [daysBeforeYear_succ]
  split <;> omega

/-- An ordinal comes after the years before its own, and in it. -/
theorem yearOf_spec (ordinal : Int) :
    daysBeforeYear (yearOf ordinal) < ordinal ∧ ordinal ≤ daysBeforeYear (yearOf ordinal + 1) := by
  obtain ⟨a, ha⟩ : ∃ a, a = (ordinal - 1) / 146097 := ⟨_, rfl⟩
  obtain ⟨b, hb⟩ : ∃ b, b = (ordinal - 1) % 146097 / 36524 := ⟨_, rfl⟩
  obtain ⟨c, hc⟩ : ∃ c, c = (ordinal - 1) % 146097 % 36524 / 1461 := ⟨_, rfl⟩
  obtain ⟨d, hd⟩ : ∃ d, d = (ordinal - 1) % 146097 % 36524 % 1461 / 365 := ⟨_, rfl⟩
  obtain ⟨e, he⟩ : ∃ e, e = (ordinal - 1) % 146097 % 36524 % 1461 % 365 := ⟨_, rfl⟩
  have hordinal : ordinal = 146097 * a + 36524 * b + 1461 * c + 365 * d + e + 1 := by omega
  have hyear : yearOf ordinal =
      if d = 4 ∨ b = 4 then a * 400 + 1 + b * 100 + c * 4 + d - 1 else a * 400 + 1 + b * 100 + c * 4 + d := by
    simp only [yearOf, ← ha, ← hb, ← hc, ← hd]
  have hbounds : 0 ≤ b ∧ b ≤ 4 ∧ 0 ≤ c ∧ c ≤ 24 ∧ 0 ≤ d ∧ d ≤ 4 ∧ 0 ≤ e ∧ e ≤ 364 := by omega
  by_cases hb4 : b = 4
  · -- The last day of a cycle of 400 years.
    have hzero : c = 0 ∧ d = 0 ∧ e = 0 := by omega
    have hy : yearOf ordinal = 400 * a + 100 * 3 + 4 * 24 + 3 + 1 := by
      rw [hyear, if_pos (Or.inr hb4)]
      omega
    have hdays := daysBeforeYear_cycles (a := a) (b := 3) (c := 24) (d := 3) (by omega) (by omega) (by omega)
    have hnext := daysBeforeYear_succ_of_isLeap (400 * a + 100 * 3 + 4 * 24 + 3 + 1) (by omega)
    rw [hy]
    omega
  · by_cases hd4 : d = 4
    · -- The last day of a leap year.
      have hlast : e = 0 ∧ (c ≤ 23 ∨ b = 3) := by omega
      have hy : yearOf ordinal = 400 * a + 100 * b + 4 * c + 3 + 1 := by
        rw [hyear, if_pos (Or.inl hd4)]
        omega
      have hdays := daysBeforeYear_cycles (a := a) (b := b) (c := c) (d := 3) (by omega) (by omega) (by omega)
      have hnext := daysBeforeYear_succ_of_isLeap (400 * a + 100 * b + 4 * c + 3 + 1) (by omega)
      rw [hy]
      omega
    · have hy : yearOf ordinal = 400 * a + 100 * b + 4 * c + d + 1 := by
        rw [hyear, if_neg (by omega)]
        omega
      have hdays := daysBeforeYear_cycles (a := a) (b := b) (c := c) (d := d) (by omega) (by omega) (by omega)
      have hnext := daysBeforeYear_add_le (400 * a + 100 * b + 4 * c + d + 1)
      rw [hy]
      omega

/-- The year of an ordinal is the only one that it falls in. -/
theorem yearOf_eq_iff {ordinal year : Int} :
    yearOf ordinal = year ↔ daysBeforeYear year < ordinal ∧ ordinal ≤ daysBeforeYear (year + 1) := by
  constructor
  · rintro rfl
    exact yearOf_spec ordinal
  · rintro ⟨hafter, hbefore⟩
    have hspec := yearOf_spec ordinal
    have hle : yearOf ordinal < year + 1 := daysBeforeYear_lt_iff.1 (by omega)
    have hge : year < yearOf ordinal + 1 := daysBeforeYear_lt_iff.1 (by omega)
    omega

theorem yearOf_lt_iff {ordinal year : Int} : yearOf ordinal < year ↔ ordinal ≤ daysBeforeYear year := by
  have hspec := yearOf_spec ordinal
  constructor
  · intro h
    have := daysBeforeYear_mono (show yearOf ordinal + 1 ≤ year by omega)
    omega
  · intro h
    exact daysBeforeYear_lt_iff.1 (by omega)

/-! ## Dates -/

def minYear : Int := 1

def maxYear : Int := 9999

/-- A `datetime.date`. -/
structure Date where
  ordinal : Int
  after : daysBeforeYear minYear < ordinal
  before : ordinal ≤ daysBeforeYear (maxYear + 1)

namespace Date

def year (d : Date) : Int := yearOf d.ordinal

/-- `_days_before_month`. -/
def daysBeforeMonth (year : Int) (month : Nat) : Int :=
  [0, 31, 59, 90, 120, 151, 181, 212, 243, 273, 304, 334].getD (month - 1) 0 +
    if 2 < month && isLeap year then 1 else 0

/-- `_days_in_month`. -/
def daysInMonth (year : Int) (month : Nat) : Int :=
  if month = 2 && isLeap year then 29
  else [31, 28, 31, 30, 31, 30, 31, 31, 30, 31, 30, 31].getD (month - 1) 0

/-- `_ymd2ord`. -/
def ymdToOrdinal (year : Int) (month : Nat) (day : Int) : Int :=
  daysBeforeYear year + daysBeforeMonth year month + day

/-- `datetime.date(year, month, day)`. `none` for the `ValueError`. -/
def new? (year : Int) (month : Nat) (day : Int) : Option Date :=
  if minYear ≤ year ∧ year ≤ maxYear ∧ 1 ≤ month ∧ month ≤ 12 ∧ 1 ≤ day ∧ day ≤ daysInMonth year month then
    let ordinal := ymdToOrdinal year month day
    if h : daysBeforeYear minYear < ordinal ∧ ordinal ≤ daysBeforeYear (maxYear + 1) then some ⟨ordinal, h.1, h.2⟩
    else none
  else none

instance : LE Date := ⟨fun d d' => d.ordinal ≤ d'.ordinal⟩

theorem le_iff {d d' : Date} : d ≤ d' ↔ d.ordinal ≤ d'.ordinal := Iff.rfl

theorem year_mem (d : Date) : minYear ≤ d.year ∧ d.year ≤ maxYear := by
  have hspec := yearOf_spec d.ordinal
  have hafter := d.after
  have hbefore := d.before
  refine ⟨?_, ?_⟩
  · have := daysBeforeYear_lt_iff.1 (show daysBeforeYear minYear < daysBeforeYear (d.year + 1) by
      unfold year
      omega)
    omega
  · have := daysBeforeYear_lt_iff.1 (show daysBeforeYear d.year < daysBeforeYear (maxYear + 1) by
      unfold year
      omega)
    omega

/-- January 1. -/
theorem new?_firstDay {year : Int} (h : minYear ≤ year ∧ year ≤ maxYear) :
    ∃ d, new? year 1 1 = some d ∧ d.ordinal = daysBeforeYear year + 1 := by
  have hordinal : ymdToOrdinal year 1 1 = daysBeforeYear year + 1 := by simp [ymdToOrdinal, daysBeforeMonth]
  have hafter := daysBeforeYear_mono h.1
  have hbefore := daysBeforeYear_mono (show year + 1 ≤ maxYear + 1 by omega)
  have hnext := daysBeforeYear_add_le year
  have hrange : daysBeforeYear minYear < ymdToOrdinal year 1 1 ∧
      ymdToOrdinal year 1 1 ≤ daysBeforeYear (maxYear + 1) := by omega
  refine ⟨⟨ymdToOrdinal year 1 1, hrange.1, hrange.2⟩, ?_, hordinal⟩
  rw [new?, if_pos ⟨h.1, h.2, by decide, by decide, by decide, by simp [daysInMonth]⟩]
  exact dif_pos hrange

/-- December 31. -/
theorem new?_lastDay {year : Int} (h : minYear ≤ year ∧ year ≤ maxYear) :
    ∃ d, new? year 12 31 = some d ∧ d.ordinal = daysBeforeYear (year + 1) := by
  have hordinal : ymdToOrdinal year 12 31 = daysBeforeYear (year + 1) := by
    rw [daysBeforeYear_succ]
    cases hleap : isLeap year <;> simp [ymdToOrdinal, daysBeforeMonth, hleap] <;> omega
  have hafter := daysBeforeYear_mono h.1
  have hbefore := daysBeforeYear_mono (show year + 1 ≤ maxYear + 1 by omega)
  have hnext := daysBeforeYear_add_le year
  have hrange : daysBeforeYear minYear < ymdToOrdinal year 12 31 ∧
      ymdToOrdinal year 12 31 ≤ daysBeforeYear (maxYear + 1) := by omega
  refine ⟨⟨ymdToOrdinal year 12 31, hrange.1, hrange.2⟩, ?_, hordinal⟩
  rw [new?, if_pos ⟨h.1, h.2, by decide, by decide, by decide, by simp [daysInMonth]⟩]
  exact dif_pos hrange

/-- There is no such year. -/
theorem new?_of_lt {year : Int} (h : maxYear < year) (month : Nat) (day : Int) : new? year month day = none := by
  rw [new?, if_neg fun hvalid => by omega]

end Date

end Calendar

end Itou.Lib
