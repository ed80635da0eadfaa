import Itou.Lib.Dates
import Itou.Lib.Queries
import Mathlib.Order.BooleanAlgebra.Basic

/-!
# IAE eligibility diagnoses

`EligibilityDiagnosis`, made by authorized prescribers and by SIAEs, and the one that counts for a job seeker.
-/

namespace Itou.Eligibility

open Itou.Lib

/-- The organization of the author, one of two kinds: `eligibility_iae_diagnosis_author_kind_coherence`. -/
inductive Author where
  | prescriber (organization : Nat)
  | employer (siae : Nat)
  deriving DecidableEq

/-- A row of `eligibility_eligibilitydiagnosis`. It is expired from `expiresAt` on. -/
structure EligibilityDiagnosis where
  pk : Nat
  jobSeeker : Nat
  author : Author
  createdAt : DateTime
  expiresAt : Int
  deriving DecidableEq

namespace EligibilityDiagnosis

variable (d : EligibilityDiagnosis)

def isFromPrescriber : Bool :=
  match d.author with
  | .prescriber _ => true
  | .employer _ => false

def isValid (today : Int) : Bool := today < d.expiresAt

/-- `EMPLOYER_DIAGNOSIS_VALIDITY_TIMEDELTA`. -/
def employerDiagnosisValidity : Int := 92

/-- `_expiration_date`. `sixMonthsAfter` adds `EXPIRATION_DELAY_MONTHS` to a date. -/
def expirationDate (sixMonthsAfter : Int → Int) (today : Int) : Author → Int
  | .employer _ => today + employerDiagnosisValidity
  | .prescriber _ => sixMonthsAfter today

/-- `create_diagnosis`. -/
def create (sixMonthsAfter : Int → Int) (now : DateTime) (pk jobSeeker : Nat) (author : Author) :
    EligibilityDiagnosis :=
  { pk, jobSeeker, author, createdAt := now, expiresAt := expirationDate sixMonthsAfter now.date author }

end EligibilityDiagnosis

/-! ## Queries -/

/-- `for_job_seeker_and_siae`. -/
def forJobSeekerAndSiae (diagnoses : List EligibilityDiagnosis) (jobSeeker : Nat) (siae : Option Nat) :
    List EligibilityDiagnosis :=
  diagnoses.filter fun d =>
    d.jobSeeker = jobSeeker && (d.isFromPrescriber || siae.any fun siae => d.author = .employer siae)

/-- The diagnoses that `last_considered_valid` orders: the valid ones, or all of them during a valid approval. -/
def consideredValid (diagnoses : List EligibilityDiagnosis) (today : Int) (hasValidApproval : Bool) (jobSeeker : Nat)
    (forSiae : Option Nat) : List EligibilityDiagnosis :=
  (forJobSeekerAndSiae diagnoses jobSeeker forSiae).filter fun d => hasValidApproval || d.isValid today

/-- `last_considered_valid`: those of prescribers first, and the last created first. -/
def lastConsideredValid (diagnoses : List EligibilityDiagnosis) (today : Int) (hasValidApproval : Bool)
    (jobSeeker : Nat) (forSiae : Option Nat) : Option EligibilityDiagnosis :=
  (orderByDesc (fun d => toLex (d.isFromPrescriber, d.createdAt))
    (consideredValid diagnoses today hasValidApproval jobSeeker forSiae)).head?

section

variable {diagnoses : List EligibilityDiagnosis} {today : Int} {hasValidApproval : Bool} {jobSeeker : Nat}
  {forSiae : Option Nat} {d : EligibilityDiagnosis}

theorem lastConsideredValid_mem
    (h : lastConsideredValid diagnoses today hasValidApproval jobSeeker forSiae = some d) :
    d ∈ consideredValid diagnoses today hasValidApproval jobSeeker forSiae :=
  mem_orderByDesc.mp (List.mem_of_head? h)

/-- The last one is of an employer exactly when there is one, and none of a prescriber. -/
theorem lastConsideredValid_fromPrescriber
    (h : lastConsideredValid diagnoses today hasValidApproval jobSeeker forSiae = some d) :
    d.isFromPrescriber = true ↔
      ∃ d' ∈ consideredValid diagnoses today hasValidApproval jobSeeker forSiae, d'.isFromPrescriber = true := by
  constructor
  · intro hd
    exact ⟨d, lastConsideredValid_mem h, hd⟩
  · rintro ⟨d', hd', hprescriber⟩
    rcases Prod.Lex.toLex_le_toLex.mp (le_of_head?_orderByDesc h hd') with hlt | ⟨heq, _⟩
    · simp only [hprescriber] at hlt
      exact absurd hlt (not_lt.mpr (Bool.le_true _))
    · exact heq.symm.trans hprescriber

theorem lastConsideredValid_eq_none
    (h : lastConsideredValid diagnoses today hasValidApproval jobSeeker forSiae = none) :
    consideredValid diagnoses today hasValidApproval jobSeeker forSiae = [] := by
  rw [lastConsideredValid, List.head?_eq_none_iff] at h
  refine List.eq_nil_iff_forall_not_mem.mpr fun d hd => ?_
  have hmem : d ∈ orderByDesc (fun d : EligibilityDiagnosis => toLex (d.isFromPrescriber, d.createdAt))
      (consideredValid diagnoses today hasValidApproval jobSeeker forSiae) := mem_orderByDesc.mpr hd
  rw [h] at hmem
  exact List.not_mem_nil hmem

end

end Itou.Eligibility
