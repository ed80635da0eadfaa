import Itou.Nir.Forms
import Mathlib.Logic.Function.Basic

/-!
# The requests that write a social security number

The signup of a job seeker, the checks of a number, the wizards that create and update a job seeker, and the forms that
write it at once. A request that is refused, whose form is not valid or that fails in the database takes no step.
-/

namespace Itou.Nir

open Itou.Lib

/-- The `profile` of a wizard session. `none` is a key that is absent, or `None`. -/
structure SessionProfile where
  nir : Option Text
  lackOfNirReason : Option (Option LackOfNIRReason)

/-- A session of kind `GET_OR_CREATE`. `email` tells if its `user` has an e-mail. -/
structure GetOrCreateSession where
  email : Bool
  profile : SessionProfile

/-- A session of kind `UPDATE`. -/
structure UpdateSession where
  jobSeekerPk : Nat
  profile : SessionProfile

/-- `signup` is the number of `ITOU_SESSION_JOB_SEEKER_SIGNUP_KEY`, by browser session. -/
structure State where
  profiles : Profiles
  signup : Nat → Option Text
  getOrCreate : Nat → Option GetOrCreateSession
  update : Nat → Option UpdateSession

/-- `accepts` tells if the other fields of a form, and those that depend on the number, are valid with the number. -/
inductive Request where
  /-- `job_seeker_signup_info`. -/
  | jobSeekerSignupInfo (session : Nat) (skip : Bool) (nir : Text) (accepts : Text → Bool)
  /-- `JobSeekerCredentialsSignupView`. `pk` is the next primary key. -/
  | jobSeekerCredentials (session pk : Nat)
  /-- `init_user_nir_from_session`, for the user of a login with FranceConnect or FT Connect. -/
  | ssoLogin (session pk : Nat)
  /-- `CheckNIRForJobSeekerView`. -/
  | checkNirForJobSeeker (jobSeeker : Nat) (nir : Text)
  /-- `GetOrCreateJobSeekerStartView`. -/
  | getOrCreateStart (session : Nat)
  /-- `join_group_from_nir`. -/
  | joinGroupFromNir (session : Nat) (nir : Text)
  /-- `CheckNIRForSenderView`. -/
  | checkNirForSender (session : Nat) (nir : Text)
  /-- `SearchByEmailForSenderView`. `found` is the job seeker who has the e-mail. -/
  | searchByEmail (session : Nat) (found : Option Nat) (confirm mayAddNir : Bool)
  /-- `CreateJobSeekerStep1ForSenderView`. -/
  | createStep1 (session : Nat) (data : NirData) (accepts : JobSeekerProfile → Bool)
  /-- `CreateJobSeekerStepEndForSenderView`. -/
  | createStepEnd (session pk : Nat)
  /-- `UpdateJobSeekerStartView`. -/
  | updateStart (session jobSeeker : Nat)
  /-- `UpdateJobSeekerStep1View`. -/
  | updateStep1 (session : Nat) (data : NirData) (accepts : JobSeekerProfile → Bool)
  /-- `UpdateJobSeekerStepEndView`. -/
  | updateStepEnd (session : Nat)
  /-- `EditJobSeekerInfoForm`, and `JobSeekerPersonalDataForm` for a job seeker without a number. -/
  | editJobSeekerInfo (jobSeeker : Nat) (data : NirData) (accepts : JobSeekerProfile → Bool)
  /-- `employee_record_views.create`. -/
  | createEmployeeRecord (jobSeeker : Nat) (data : NirData) (accepts : JobSeekerProfile → Bool)

namespace State

variable (mapping : CaseMapping) (s : State)

/-- `INSERT` or `UPDATE` of one profile. -/
def save (pk : Nat) (profile : JobSeekerProfile) : Option State :=
  if s.profiles.constraints (some pk) profile then some { s with profiles := s.profiles.insert pk profile } else none

def setSignup (session : Nat) (nir : Option Text) : State :=
  { s with
    signup := Function.update s.signup session nir }

def setGetOrCreate (session : Nat) (value : Option GetOrCreateSession) : State :=
  { s with
    getOrCreate := Function.update s.getOrCreate session value }

def setUpdate (session : Nat) (value : Option UpdateSession) : State :=
  { s with
    update := Function.update s.update session value }

/-! ## Signup -/

/-- `job_seeker_signup_info`. -/
def jobSeekerSignupInfo (session : Nat) (skip : Bool) (typed : Text) (accepts : Text → Bool) : Option State :=
  let nir := if skip then JobSeekerSignupWithOptionalNirForm.nir mapping s.profiles
    else JobSeekerSignupForm.nir mapping s.profiles typed
  (nir.filter accepts).map fun nir => s.setSignup session (some nir)

/-- `JobSeekerCredentialsSignupForm.save`. -/
def jobSeekerCredentials (session pk : Nat) : Option State :=
  if pk ∈ s.profiles then none
  else (s.signup session).bind fun nir => (s.setSignup session none).save pk { nir, lackOfNirReason := none }

/-- `init_user_nir_from_session`. -/
def ssoLogin (session pk : Nat) : Option State :=
  (s.signup session).bind fun nir => (s.setSignup session none).save pk { nir, lackOfNirReason := none }

/-! ## Checks -/

/-- `CheckNIRForJobSeekerView.post`. -/
def checkNirForJobSeeker (jobSeeker : Nat) (typed : Text) : Option State :=
  ((s.profiles.lookup jobSeeker).filter (·.nir = [])).bind fun _ =>
    (CheckJobSeekerNirForm.clean mapping s.profiles (some jobSeeker) typed).bind fun form =>
      s.save jobSeeker { nir := form.1, lackOfNirReason := none }

/-- `CheckNIRForSenderView.post`, and the part of `join_group_from_nir` that it shares, for the session that they set. -/
def setNir (session : Nat) (email : Bool) (typed : Text) : Option State :=
  (CheckJobSeekerNirForm.clean mapping s.profiles none typed).bind fun form =>
    match form.2 with
    | some _ => none
    | none => some (s.setGetOrCreate session
        (some { email, profile := { nir := some form.1, lackOfNirReason := none } }))

/-- `SearchByEmailForSenderView.post`. -/
def searchByEmail (session : Nat) (found : Option Nat) (confirm mayAddNir : Bool) : Option State :=
  (s.getOrCreate session).bind fun value =>
    match found with
    | none => some (s.setGetOrCreate session (some { value with email := true }))
    | some jobSeeker =>
        (s.profiles.lookup jobSeeker).bind fun profile => value.profile.nir.bind fun nir =>
          if nir ≠ [] ∧ mayAddNir ∧ profile.nir = [] ∧ confirm ∧ !s.profiles.usedByOther (some jobSeeker) nir then
            s.save jobSeeker { nir, lackOfNirReason := none }
          else none

/-! ## Wizards -/

/-- The first step of both wizards: the `profile` that the session is given. -/
def step1 (pk : Option Nat) (initial : Text) (data : NirData) (accepts : JobSeekerProfile → Bool) :
    Option SessionProfile :=
  (((JobSeekerNIRUpdateMixin.clean mapping initial data).filter accepts).bind
    (JobSeekerProfileFieldsMixin.postClean mapping s.profiles pk)).map fun profile =>
      { nir := some profile.nir, lackOfNirReason := some profile.lackOfNirReason }

/-- `CreateJobSeekerStep1ForSenderView.post`. -/
def createStep1 (session : Nat) (data : NirData) (accepts : JobSeekerProfile → Bool) : Option State :=
  (s.getOrCreate session).bind fun value =>
    (s.step1 mapping none (value.profile.nir.getD []) data accepts).map fun profile =>
      s.setGetOrCreate session (some { value with profile })

/-- `CreateJobSeekerStepEndForSenderView.post`. A number that is `None` violates a constraint. -/
def createStepEnd (session pk : Nat) : Option State :=
  if pk ∈ s.profiles then none
  else
    ((s.getOrCreate session).filter (·.email)).bind fun value => value.profile.nir.bind fun nir =>
      (s.setGetOrCreate session none).save pk
        { nir, lackOfNirReason := value.profile.lackOfNirReason.getD none }

/-- `UpdateJobSeekerStep1View.post`. -/
def updateStep1 (session : Nat) (data : NirData) (accepts : JobSeekerProfile → Bool) : Option State :=
  (s.update session).bind fun value => (s.profiles.lookup value.jobSeekerPk).bind fun profile =>
    (s.step1 mapping (some value.jobSeekerPk) (value.profile.nir.getD profile.nir) data accepts).map fun profile =>
      s.setUpdate session (some { value with profile })

/-- `UpdateJobSeekerStepEndView.post`. -/
def updateStepEnd (session : Nat) : Option State :=
  (s.update session).bind fun value => (s.profiles.lookup value.jobSeekerPk).bind fun profile =>
    (s.setUpdate session none).save value.jobSeekerPk
      { nir := value.profile.nir.getD profile.nir,
        lackOfNirReason := value.profile.lackOfNirReason.getD profile.lackOfNirReason }

/-! ## Forms that save at once -/

/-- `EditJobSeekerInfoForm.save`. -/
def editJobSeekerInfo (jobSeeker : Nat) (data : NirData) (accepts : JobSeekerProfile → Bool) : Option State :=
  (s.profiles.lookup jobSeeker).bind fun initial =>
    (((JobSeekerNIRUpdateMixin.clean mapping initial.nir data).filter accepts).bind
      (JobSeekerProfileFieldsMixin.postClean mapping s.profiles (some jobSeeker))).bind (s.save jobSeeker)

/-- `NewEmployeeRecordJobSeekerForm.save`. -/
def createEmployeeRecord (jobSeeker : Nat) (data : NirData) (accepts : JobSeekerProfile → Bool) : Option State :=
  (s.profiles.lookup jobSeeker).bind fun initial =>
    (((NewEmployeeRecordJobSeekerForm.clean mapping initial data).filter accepts).bind
      (JobSeekerProfileFieldsMixin.postClean mapping s.profiles (some jobSeeker))).bind (s.save jobSeeker)

def handle (s : State) : Request → Option State
  | .jobSeekerSignupInfo session skip nir accepts => s.jobSeekerSignupInfo mapping session skip nir accepts
  | .jobSeekerCredentials session pk => s.jobSeekerCredentials session pk
  | .ssoLogin session pk => s.ssoLogin session pk
  | .checkNirForJobSeeker jobSeeker nir => s.checkNirForJobSeeker mapping jobSeeker nir
  | .getOrCreateStart session => some (s.setGetOrCreate session
      (some { email := false, profile := { nir := none, lackOfNirReason := none } }))
  | .joinGroupFromNir session nir => s.setNir mapping session false nir
  | .checkNirForSender session nir =>
      (s.getOrCreate session).bind fun value => s.setNir mapping session value.email nir
  | .searchByEmail session found confirm mayAddNir => s.searchByEmail session found confirm mayAddNir
  | .createStep1 session data accepts => s.createStep1 mapping session data accepts
  | .createStepEnd session pk => s.createStepEnd session pk
  | .updateStart session jobSeeker => some (s.setUpdate session
      (some { jobSeekerPk := jobSeeker, profile := { nir := none, lackOfNirReason := none } }))
  | .updateStep1 session data accepts => s.updateStep1 mapping session data accepts
  | .updateStepEnd session => s.updateStepEnd session
  | .editJobSeekerInfo jobSeeker data accepts => s.editJobSeekerInfo mapping jobSeeker data accepts
  | .createEmployeeRecord jobSeeker data accepts => s.createEmployeeRecord mapping jobSeeker data accepts

end State

/-! ## One number, one account -/

namespace State

/-- Each number is canonical. -/
def StoredCanonical (mapping : CaseMapping) (s : State) : Prop :=
  ∀ pk profile, s.profiles.lookup pk = some profile → profile.nir ≠ [] → IsCanonical mapping profile.nir

/-- No two job seekers have numbers with the same canonical form. -/
def OneAccount (mapping : CaseMapping) (s : State) : Prop :=
  ∀ pk pk' profile profile', s.profiles.lookup pk = some profile → s.profiles.lookup pk' = some profile' →
    profile.nir ≠ [] → profile'.nir ≠ [] → canonical mapping profile.nir = canonical mapping profile'.nir → pk = pk'

/-- A number typed in `CheckJobSeekerNirForm` finds the account that has it. -/
def FindsAccount (mapping : CaseMapping) (s : State) : Prop :=
  ∀ typed form, CheckJobSeekerNirForm.clean mapping s.profiles none typed = some form →
    ∀ pk profile, s.profiles.lookup pk = some profile → profile.nir ≠ [] →
      canonical mapping profile.nir = canonical mapping (strip typed) → form.2 = some pk

/-- One social security number, one account. -/
structure OneNumberOneAccount (mapping : CaseMapping) (s : State) : Prop where
  stored : s.StoredCanonical mapping
  unique : s.OneAccount mapping
  finds : s.FindsAccount mapping

/-- No session is open. -/
def Fresh (s : State) : Prop := ∀ n, s.signup n = none ∧ s.getOrCreate n = none ∧ s.update n = none

/-- The number that a request keeps as it was typed has no letter in lower case: that of the signup when the account is
created, and that of the first step of an employee record. -/
def UpperCase (mapping : CaseMapping) (s : State) : Request → Prop
  | .jobSeekerCredentials session _ | .ssoLogin session _ =>
      ∀ nir, s.signup session = some nir → upper mapping nir = nir
  | .createEmployeeRecord jobSeeker data _ =>
      ∀ profile, s.profiles.lookup jobSeeker = some profile → profile.nir = [] → data.lackOfNir = false →
        upper mapping (strip data.nir) = strip data.nir
  | _ => True

end State

end Itou.Nir
