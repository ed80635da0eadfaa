import Itou.Lib.Dates
import Itou.Lib.Outcomes
import Itou.Lib.Queries
import Itou.Lib.Runs
import Itou.Users

/-!
# GEIQ eligibility diagnoses

`GEIQEligibilityDiagnosis`, made by authorized prescribers and by GEIQs, with the queries that give the
current one, its creation, its update and the invalidation that a prescriber's diagnosis brings about.
-/

namespace Itou.Eligibility

open Itou.Lib

/-- A row of `eligibility_geiqeligibilitydiagnosis`. It is expired from `expiresAt` on. -/
structure GeiqEligibilityDiagnosis where
  pk : Nat
  jobSeeker : Nat
  author : Nat
  authorPrescriberOrganization : Option Nat
  authorGeiq : Option Nat
  createdAt : DateTime
  expiresAt : Int
  administrativeCriteria : List Nat
  deriving DecidableEq

/-- The diagnoses, and the job applications with their `geiq_eligibility_diagnosis`. The clock is the time of
the last step. -/
structure State where
  clock : DateTime
  diagnoses : List GeiqEligibilityDiagnosis
  nextPk : Nat
  jobApplications : List (Nat × Nat)
  deriving DecidableEq

/-- No diagnosis yet. -/
def State.start (clock : DateTime) : State := ⟨clock, [], 1, []⟩

namespace GeiqEligibilityDiagnosis

variable (d : GeiqEligibilityDiagnosis)

def isValid (today : Int) : Bool := today < d.expiresAt

/-- The filter of `authored_by_prescriber_or_geiq`. -/
def authoredByPrescriberOrGeiq (geiq : Option Nat) : Bool :=
  d.authorGeiq = geiq || d.authorPrescriberOrganization.isSome

end GeiqEligibilityDiagnosis

/-! ## Queries -/

/-- `diagnoses_for`: the last created first. -/
def diagnosesFor (diagnoses : List GeiqEligibilityDiagnosis) (jobSeeker : Nat) (forGeiq : Option Nat) :
    List GeiqEligibilityDiagnosis :=
  orderByDesc GeiqEligibilityDiagnosis.createdAt
    (diagnoses.filter fun d => d.jobSeeker = jobSeeker && d.authoredByPrescriberOrGeiq forGeiq)

/-- `valid_diagnoses_for`. -/
def State.validDiagnosesFor (s : State) (today : Int) (jobSeeker : Nat) (forGeiq : Option Nat) :
    List GeiqEligibilityDiagnosis :=
  diagnosesFor (s.diagnoses.filter fun d => d.isValid today) jobSeeker forGeiq

/-! ## Saving -/

/-- `clean`, on a diagnosis that is not in the table yet; the source adds the job seeker's name to the text. On a
saved one `clean` only looks at the kind of the GEIQ, which no step changes. -/
def State.clean (s : State) (today : Int) (d : GeiqEligibilityDiagnosis) : Except String Unit :=
  if s.validDiagnosesFor today d.jobSeeker d.authorGeiq ≠ [] then
    .error "Il existe déjà un diagnostic GEIQ valide pour cet utilisateur"
  else .ok ()

/-- `_invalidate_obsolete_geiq_diagnoses`, after the save of the diagnosis `d`: a valid diagnosis of a
prescriber expires the valid ones of GEIQs that no job application is attached to. -/
def State.invalidateObsoleteGeiqDiagnoses (today : Int) (d : GeiqEligibilityDiagnosis) (s : State) : State :=
  if d.authorPrescriberOrganization.isSome && d.isValid today then
    { s with diagnoses := s.diagnoses.map fun g =>
        if g.isValid today && g.jobSeeker = d.jobSeeker && g.authorGeiq.isSome &&
            s.jobApplications.all (fun a => a.2 ≠ g.pk) then
          { g with expiresAt := d.createdAt.date }
        else g }
  else s

/-- What `create_eligibility_diagnosis` is called with. -/
structure CreateArgs where
  jobSeeker : Nat
  author : Nat
  authorStructure : Organization
  administrativeCriteria : List Nat
  deriving DecidableEq

/-- The author organization and the author GEIQ that the author's structure gives. -/
def CreateArgs.authors (args : CreateArgs) : Except String (Option Nat × Option Nat) :=
  match args.authorStructure with
  | .prescriber organization => .ok (some organization.pk, none)
  | .company company =>
      if company.kind = .geiq then
        if args.administrativeCriteria = [] then
          .error "Un diagnostic effectué par un GEIQ doit avoir au moins un critère d'éligibilité"
        else .ok (none, some company.pk)
      else .error "Impossible de créer un diagnostic GEIQ avec une structure de type Company"
  | .institution _ => .error "Impossible de créer un diagnostic GEIQ avec une structure de type Institution"

/-- `create_eligibility_diagnosis`. `expirationDate` adds `EXPIRATION_DELAY_MONTHS` to a date. -/
def State.create (expirationDate : Int → Int) (now : DateTime) (args : CreateArgs) (s : State) :
    Except String State := do
  let (authorPrescriberOrganization, authorGeiq) ← args.authors
  let d : GeiqEligibilityDiagnosis :=
    { pk := s.nextPk
      jobSeeker := args.jobSeeker
      author := args.author
      authorPrescriberOrganization
      authorGeiq
      createdAt := now
      expiresAt := expirationDate now.date
      administrativeCriteria := args.administrativeCriteria }
  s.clean now.date d
  return State.invalidateObsoleteGeiqDiagnoses now.date d
    { s with diagnoses := d :: s.diagnoses, nextPk := s.nextPk + 1 }

/-- `update_eligibility_diagnosis`, on the row of the diagnosis. -/
def State.update (expirationDate : Int → Int) (now : DateTime) (pk author : Nat)
    (administrativeCriteria : List Nat) (s : State) : Except String State :=
  match s.diagnoses.find? fun d => d.pk = pk with
  | none => .error "Le diagnostic fourni n'est pas un diagnostic GEIQ"
  | some d =>
      if !d.isValid now.date then .error "Impossible de modifier un diagnostic GEIQ expiré"
      else
        let d' := { d with author, expiresAt := expirationDate now.date, administrativeCriteria }
        .ok (State.invalidateObsoleteGeiqDiagnoses now.date d'
          { s with diagnoses := s.diagnoses.map fun e => if e.pk = pk then d' else e })

/-! ## Steps -/

/-- What can happen to the diagnoses. -/
inductive Action where
  | create (args : CreateArgs)
  | update (pk author : Nat) (administrativeCriteria : List Nat)
  | attach (jobApplication diagnosis : Nat)
  | detach (jobApplication : Nat)
  | wait
  deriving DecidableEq

/-- One step, at a time after the last one. -/
def State.step (expirationDate : Int → Int) (s : State) (label : DateTime × Action) : Option State :=
  if s.clock < label.1 then
    let s' := { s with clock := label.1 }
    match label.2 with
    | .create args => (s'.create expirationDate label.1 args).toOption
    | .update pk author criteria => (s'.update expirationDate label.1 pk author criteria).toOption
    | .attach jobApplication diagnosis =>
        some { s' with
          jobApplications := (jobApplication, diagnosis) ::
            s.jobApplications.filter fun a => a.1 ≠ jobApplication }
    | .detach jobApplication =>
        some { s' with jobApplications := s.jobApplications.filter fun a => a.1 ≠ jobApplication }
    | .wait => some s'
  else none

/-! ## Diagnoses that are valid -/

/-- A valid diagnosis of a prescriber for the job seeker. -/
def GeiqEligibilityDiagnosis.ByPrescriber (today : Int) (jobSeeker : Nat) (d : GeiqEligibilityDiagnosis) :
    Prop :=
  d.isValid today = true ∧ d.jobSeeker = jobSeeker ∧ d.authorPrescriberOrganization.isSome = true

/-- A valid diagnosis of the GEIQ for the job seeker. -/
def GeiqEligibilityDiagnosis.byGeiq (today : Int) (jobSeeker geiq : Nat) (d : GeiqEligibilityDiagnosis) : Bool :=
  d.isValid today && d.jobSeeker = jobSeeker && d.authorGeiq = some geiq

end Itou.Eligibility
