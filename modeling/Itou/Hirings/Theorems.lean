import Itou.Hirings.Lemmas.Wizards
import Itou.Lib.Runs

/-!
# Self-prescription

Which confirmations of the two wizards keep a sanctioned company from prescribing for itself.
-/

namespace Itou.Hirings.State

open Itou.Lib
open Itou.Eligibility
open Itou.JobApplications

/-- Over any run, no sanctioned company self-prescribes and the two wizards answer the same exactly when, at each
confirmation, the diagnosis of a prescriber comes before its own. -/
theorem noSelfPrescription_iff_hasPrescriber (s : State) (actions : List Action) :
    AllSteps step NoSelfPrescription s actions ↔ AllSteps step HasPrescriber s actions :=
  allSteps_congr (J := fun _ => True) (fun _ _ _ _ _ => trivial) (fun _ _ _ _ _ => noSelfPrescription_iff _) trivial

/-- An application to the EI 20 that is being studied. -/
def studied : JobApplication where
  pk := 2
  jobSeeker := ⟨1, .jobSeeker⟩
  sender := some ⟨1, .jobSeeker⟩
  senderKind := .jobSeeker
  senderCompany := none
  senderPrescriberOrganization := none
  toCompany := ⟨20, .ei⟩
  createdAt := ⟨0, 0⟩
  updatedAt := ⟨0, 0⟩
  state := .processing

/-- The EI 20 on the given day. Its sanction starts on day 5. -/
def sanctioned (today : Int) (diagnoses : List EligibilityDiagnosis) : State where
  contracts := ⟨⟨today, 0⟩, ⟨∅, ∅, ∅⟩, [studied]⟩
  diagnoses := diagnoses
  sanctions := [⟨20, some ⟨5, some 100⟩⟩]

/-- A member of the EI 20. -/
def member : Request := ⟨5, .company ⟨20, .ei⟩, [20]⟩

def memberFacts : Facts where
  profile := ⟨"269054958815780", "", none⟩
  validGeiqDiagnosis := none
  nextNumber := "999990000001"
  waitingPeriodEnd := (· + 730)
  addMonths := fun day n => day + 30 * n

/-- What the EI fills in. -/
def memberForm : AcceptForm := ⟨10, none, "", {}, none, none⟩

/-- The diagnosis is made on day 0. -/
def ownDiagnosis : EligibilityDiagnosis := ⟨1, 1, .employer 20, ⟨0, 0⟩, 92⟩

/-- The EI makes its diagnosis before the sanction, and accepts with it on the day after the sanction starts: the
acceptance creates an approval. The hire wizard would have refused. -/
theorem selfPrescription_before_sanction :
    (sanctioned 0 []).step (.acceptEligibility member memberFacts 2) = some (sanctioned 0 [ownDiagnosis]) ∧
      (∃ outcome, (sanctioned 6 [ownDiagnosis]).acceptConfirmation member memberFacts 2 memberForm = some outcome ∧
        outcome.1.eligibilityDiagnosis = some ownDiagnosis.pk ∧ outcome.1.approval = some 1) ∧
      (sanctioned 6 [ownDiagnosis]).confirmationForHire memberFacts ⟨20, .ei⟩ ⟨1, .jobSeeker⟩ = .suspended ∧
      ¬ AllSteps step NoSelfPrescription (sanctioned 0 [])
        [.acceptEligibility member memberFacts 2, .others (sanctioned 6 [ownDiagnosis]),
          .acceptConfirmation member memberFacts 2 memberForm] := by
  refine ⟨rfl, ⟨_, rfl, rfl, rfl⟩, by decide, fun h => ?_⟩
  have hlaw : (sanctioned 6 [ownDiagnosis]).NoSelfPrescription (.acceptConfirmation member memberFacts 2 memberForm) :=
    h.2.2.1
  have hfirst := (noSelfPrescription_iff _).mp hlaw studied rfl
  obtain ⟨d, hd, hprescriber⟩ := hfirst rfl rfl ownDiagnosis (by decide) rfl
  have hnone : ∀ d ∈ (sanctioned 6 [ownDiagnosis]).consideredValid memberFacts studied.toCompany studied.jobSeeker,
      d.isFromPrescriber = false := by decide
  exact absurd hprescriber (Bool.not_eq_true _ ▸ hnone d hd)

end Itou.Hirings.State
