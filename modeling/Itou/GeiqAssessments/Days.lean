import Itou.GeiqAssessments.Views
import Itou.Lib.Dates
import Itou.Lib.Uncovered
import Mathlib.Algebra.BigOperators.Group.Finset.Basic
import Mathlib.Algebra.Order.BigOperators.Group.Finset

/-!
# Days of a contract in a year

The allowance of an employee depends on how many days of the contract fall in the year of the campaign. The days of the
years before and after it are shown beside them.
-/

namespace Itou.GeiqAssessments

open Itou.Lib Itou.Lib.Calendar

/-! ## Days in a year -/

/-- `nb_days_in_year`. `none` when `datetime.date` raises. -/
def nbDaysInYear (start end' : Date) (year : Int) : Option Int :=
  if start.year > year then some 0 -- This shouldn't happen
  else
    (if start.year < year then Date.new? year 1 1 else some start).bind fun start =>
      if end'.year < year then some 0
      else
        (if end'.year > year then Date.new? year 12 31 else some end').map fun end' => end'.ordinal - start.ordinal + 1

/-- The days of a period that fall in a year. -/
def daysInYear (start end' : Date) (year : Int) : Finset Int :=
  (daysBetween start.ordinal end'.ordinal).filter fun d => yearOf d = year

variable {start end' : Date} {year : Int}

theorem mem_daysInYear {d : Int} :
    d ∈ daysInYear start end' year ↔ (start.ordinal ≤ d ∧ d ≤ end'.ordinal) ∧ yearOf d = year := by
  rw [daysInYear, Finset.mem_filter, mem_daysBetween]

/-- The days of a year go from January 1 to December 31. -/
theorem daysInYear_eq : daysInYear start end' year =
    daysBetween (max start.ordinal (daysBeforeYear year + 1)) (min end'.ordinal (daysBeforeYear (year + 1))) := by
  ext d
  rw [mem_daysInYear, mem_daysBetween, yearOf_eq_iff]
  omega

theorem card_daysInYear : ((daysInYear start end' year).card : Int) =
    max 0 (min end'.ordinal (daysBeforeYear (year + 1)) + 1 - max start.ordinal (daysBeforeYear year + 1)) := by
  rw [daysInYear_eq, card_daysBetween]
  omega

theorem disjoint_daysInYear {year' : Int} (h : year ≠ year') :
    Disjoint (daysInYear start end' year) (daysInYear start end' year') := by
  rw [Finset.disjoint_left]
  intro d hd hd'
  exact h ((mem_daysInYear.1 hd).2.symm.trans (mem_daysInYear.1 hd').2)

theorem year_lt_iff {d : Date} : d.year < year ↔ d.ordinal ≤ daysBeforeYear year := yearOf_lt_iff

theorem lt_year_iff {d : Date} : year < d.year ↔ daysBeforeYear (year + 1) < d.ordinal := by
  have h : d.year < year + 1 ↔ d.ordinal ≤ daysBeforeYear (year + 1) := year_lt_iff
  omega

/-- The first day of the period in the year, once the years before are cut. -/
theorem firstDay_eq (start : Date) (hyear : year ≤ maxYear) :
    ∃ first, (if start.year < year then Date.new? year 1 1 else some start) = some first ∧
      first.ordinal = max start.ordinal (daysBeforeYear year + 1) := by
  have hmin := start.year_mem.1
  by_cases hlt : start.year < year
  · obtain ⟨first, hfirst, hordinal⟩ := Date.new?_firstDay (show minYear ≤ year ∧ year ≤ maxYear by omega)
    refine ⟨first, by rw [if_pos hlt, hfirst], ?_⟩
    have := year_lt_iff.1 hlt
    omega
  · refine ⟨start, if_neg hlt, ?_⟩
    have := mt year_lt_iff.2 hlt
    omega

/-- The last day of the period in the year, once the years after are cut. -/
theorem lastDay_eq (end' : Date) (hyear : year ≤ maxYear) (hmin : minYear ≤ year) :
    ∃ last, (if end'.year > year then Date.new? year 12 31 else some end') = some last ∧
      last.ordinal = min end'.ordinal (daysBeforeYear (year + 1)) := by
  by_cases hlt : year < end'.year
  · obtain ⟨last, hlast, hordinal⟩ := Date.new?_lastDay ⟨hmin, hyear⟩
    refine ⟨last, by rw [if_pos hlt, hlast], ?_⟩
    have := lt_year_iff.1 hlt
    omega
  · refine ⟨end', if_neg hlt, ?_⟩
    have := mt lt_year_iff.2 hlt
    omega

/-- Up to the last year of the calendar, the days are counted. -/
theorem nbDaysInYear_eq (h : start ≤ end') (hyear : year ≤ maxYear) :
    nbDaysInYear start end' year = some ((daysInYear start end' year).card : Int) := by
  have hle := Date.le_iff.1 h
  have hnext := daysBeforeYear_add_le year
  rw [card_daysInYear]
  by_cases hafter : start.year > year
  · have := lt_year_iff.1 hafter
    rw [nbDaysInYear, if_pos hafter]
    exact congrArg some (by omega)
  · obtain ⟨first, hfirst, hfirstOrdinal⟩ := firstDay_eq start hyear
    by_cases hbefore : end'.year < year
    · have := year_lt_iff.1 hbefore
      rw [nbDaysInYear, if_neg hafter, hfirst, Option.bind_some, if_pos hbefore]
      exact congrArg some (by omega)
    · have hmin := start.year_mem.1
      obtain ⟨last, hlast, hlastOrdinal⟩ := lastDay_eq end' hyear (by omega)
      have hstart := mt lt_year_iff.2 hafter
      have hend := mt year_lt_iff.2 hbefore
      rw [nbDaysInYear, if_neg hafter, hfirst, Option.bind_some, if_neg hbefore, hlast, Option.map_some]
      exact congrArg some (by omega)

/-- There is no date in a later year: `datetime.date` raises. -/
theorem nbDaysInYear_of_lt (hyear : maxYear < year) : nbDaysInYear start end' year = none := by
  have hmax := start.year_mem.2
  have hlt : start.year < year := by omega
  rw [nbDaysInYear, if_neg (by omega), if_pos hlt, Date.new?_of_lt hyear]
  rfl

/-- Each day of the period falls in one year. -/
theorem sum_daysInYear {years : Finset Int} (h : ∀ d ∈ daysBetween start.ordinal end'.ordinal, yearOf d ∈ years) :
    ∑ year ∈ years, (daysInYear start end' year).card = (daysBetween start.ordinal end'.ordinal).card :=
  (Finset.card_eq_sum_card_fiberwise h).symm

/-! ## Contracts -/

/-- The dates of an `EmployeeContract`. -/
structure ContractDates where
  startAt : Date
  plannedEndAt : Date
  endAt : Option Date

namespace ContractDates

variable (c : ContractDates)

def lastDay : Date := c.endAt.getD c.plannedEndAt

def nbDaysInPreviousYear (campaignYear : Int) : Option Int := nbDaysInYear c.startAt c.lastDay (campaignYear - 1)

def nbDaysInFollowingYear (campaignYear : Int) : Option Int := nbDaysInYear c.startAt c.lastDay (campaignYear + 1)

/-- What `contract_data_to_django` counts of the contract. -/
def contractInfo (allowanceAmount : Nat) (campaignYear : Int) : Option ContractInfo :=
  (nbDaysInYear c.startAt c.lastDay campaignYear).map fun nbDays => ⟨allowanceAmount, nbDays.toNat⟩

theorem contractInfo_eq (h : c.startAt ≤ c.lastDay) {campaignYear : Int} (hyear : campaignYear ≤ maxYear)
    (allowanceAmount : Nat) : c.contractInfo allowanceAmount campaignYear =
      some ⟨allowanceAmount, (daysInYear c.startAt c.lastDay campaignYear).card⟩ := by
  rw [contractInfo, nbDaysInYear_eq h hyear, Option.map_some, Int.toNat_natCast]

end ContractDates

end Itou.GeiqAssessments
