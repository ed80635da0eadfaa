import Itou.Lib.Dates
import Itou.Lib.Runs
import Mathlib.Logic.Function.Basic

/-!
# Certification of job seekers by France Travail

France Travail gives an identifier for the names, the birthdate and the NIR that are sent in a search. The saves of the
user and of its profile drop the identifier when they detect a change of one of these. Processes work on instances that
they have read before, and interleave.
-/

namespace Itou.Certification

open Itou.Lib

universe u

/-! ## Rows -/

structure Names where
  firstName : String
  lastName : String
  deriving DecidableEq

def Names.swap (names : Names) : Names := ⟨names.lastName, names.firstName⟩

/-- What `recherche_individu_certifie` sends. -/
structure Identity where
  names : Names
  birthdate : Option Int
  nir : String
  deriving DecidableEq

/-- An identifier, with the identity of the search that returned it. -/
structure Certificate where
  idNational : String
  sent : Identity
  deriving DecidableEq

/-- The row of a job seeker and the row of its profile. -/
structure Row where
  names : Names
  birthdate : Option Int
  nir : String
  peObfuscatedNir : Option Certificate
  peLastCertificationAttemptAt : Option DateTime
  deriving DecidableEq

namespace Row

variable (row : Row)

def identity : Identity := ⟨row.names, row.birthdate, row.nir⟩

/-- The identifier was returned for the identity of the row. -/
def Describes : Prop := ∀ c ∈ row.peObfuscatedNir, c.sent = row.identity

instance : Decidable row.Describes := inferInstanceAs (Decidable (∀ _ ∈ _, _))

end Row

/-! ## Instances -/

inductive UserField where
  | firstName
  | lastName
  | other
  deriving DecidableEq

inductive ProfileField where
  | birthdate
  | nir
  | peObfuscatedNir
  | peLastCertificationAttemptAt
  | other
  deriving DecidableEq

/-- A save without `update_fields` writes all the columns. -/
def Writes {F : Type u} (updateFields : Option (List F)) (field : F) : Prop := ∀ fields ∈ updateFields, field ∈ fields

instance {F : Type u} [DecidableEq F] (updateFields : Option (List F)) (field : F) :
    Decidable (Writes updateFields field) :=
  inferInstanceAs (Decidable (∀ _ ∈ updateFields, _))

/-- A user in memory, with the `_old_values` of its names. -/
structure UserInstance where
  names : Names
  old : Names

namespace UserInstance

variable (user : UserInstance)

def load (row : Row) : UserInstance := ⟨row.names, row.names⟩

def HasDataChanged : Prop := user.names ≠ user.old

instance : Decidable user.HasDataChanged := inferInstanceAs (Decidable (_ ≠ _))

def setOldValues : UserInstance := { user with old := user.names }

/-- The `UPDATE` of the user. -/
def write (updateFields : Option (List UserField)) (row : Row) : Row :=
  { row with names :=
      { firstName := if Writes updateFields .firstName then user.names.firstName else row.names.firstName
        lastName := if Writes updateFields .lastName then user.names.lastName else row.names.lastName } }

end UserInstance

/-- A profile in memory, with the `_old_values` of its birthdate and of its NIR. -/
structure ProfileInstance where
  birthdate : Option Int
  nir : String
  peObfuscatedNir : Option Certificate
  peLastCertificationAttemptAt : Option DateTime
  oldBirthdate : Option Int
  oldNir : String

namespace ProfileInstance

variable (profile : ProfileInstance)

def load (row : Row) : ProfileInstance where
  birthdate := row.birthdate
  nir := row.nir
  peObfuscatedNir := row.peObfuscatedNir
  peLastCertificationAttemptAt := row.peLastCertificationAttemptAt
  oldBirthdate := row.birthdate
  oldNir := row.nir

def HasDataChanged : Prop := profile.birthdate ≠ profile.oldBirthdate ∨ profile.nir ≠ profile.oldNir

instance : Decidable profile.HasDataChanged := inferInstanceAs (Decidable (_ ∨ _))

def setOldValues : ProfileInstance :=
  { profile with oldBirthdate := profile.birthdate, oldNir := profile.nir }

/-- The `UPDATE` of the profile. -/
def write (updateFields : Option (List ProfileField)) (row : Row) : Row :=
  { row with
    birthdate := if Writes updateFields .birthdate then profile.birthdate else row.birthdate
    nir := if Writes updateFields .nir then profile.nir else row.nir
    peObfuscatedNir :=
      if Writes updateFields .peObfuscatedNir then profile.peObfuscatedNir else row.peObfuscatedNir
    peLastCertificationAttemptAt :=
      if Writes updateFields .peLastCertificationAttemptAt then profile.peLastCertificationAttemptAt
      else row.peLastCertificationAttemptAt }

/-- Drop the certification. -/
def reset : ProfileInstance := { profile with peObfuscatedNir := none, peLastCertificationAttemptAt := none }

/-- `JobSeekerProfile.save`: the instance and the row after it. -/
def save (updateFields : Option (List ProfileField)) (row : Row) : ProfileInstance × Row :=
  if profile.HasDataChanged then
    let fields := updateFields.map (· ++ [.peObfuscatedNir, .peLastCertificationAttemptAt])
    (profile.reset.setOldValues, profile.reset.write fields row)
  else (profile.setOldValues, profile.write updateFields row)

end ProfileInstance

/-! ## Processes -/

/-- Where a process stands: it edits, it waits between the search and the save of `notify_pole_emploi`, or it runs
`pe_certify_users`. -/
inductive Phase where
  | editing
  | notifying (found : Certificate)
  | examining
  | examined (certified swapped : Bool)

/-- A process with the instances that it has read. -/
structure Process where
  user : UserInstance
  profile : Option ProfileInstance
  phase : Phase

namespace Process

variable (p : Process)

/-- The accessor `jobseeker_profile`: it reads the profile when it was not. -/
def jobseekerProfile (row : Row) : ProfileInstance := p.profile.getD (.load row)

/-- `User.save`, with the save of the profile that it makes. -/
def saveUser (updateFields : Option (List UserField)) (row : Row) : Process × Row :=
  let written := p.user.write updateFields row
  if p.user.HasDataChanged then
    let saved := (p.jobseekerProfile written).reset.save
      (some [.peObfuscatedNir, .peLastCertificationAttemptAt]) written
    ({ p with user := p.user.setOldValues, profile := some saved.1 }, saved.2)
  else ({ p with user := p.user.setOldValues }, written)

def saveProfile (updateFields : Option (List ProfileField)) (row : Row) : Process × Row :=
  let saved := (p.jobseekerProfile row).save updateFields row
  ({ p with profile := some saved.1 }, saved.2)

/-- All the data that a search needs. -/
def HasUserData (names : Names) (birthdate : Option Int) (nir : String) : Prop :=
  names.firstName ≠ "" ∧ names.lastName ≠ "" ∧ nir ≠ "" ∧ birthdate ≠ none

instance (names : Names) (birthdate : Option Int) (nir : String) : Decidable (HasUserData names birthdate nir) :=
  inferInstanceAs (Decidable (_ ∧ _))

/-- `notify_pole_emploi` up to the answer of the search, when France Travail gives one. -/
def notifySearch (row : Row) (response : Option String) : Process :=
  let profile := p.jobseekerProfile row
  let read := { p with profile := some profile }
  if HasUserData p.user.names profile.birthdate profile.nir ∧ profile.peObfuscatedNir = none then
    match response with
    | none => read
    | some idNational =>
        { read with phase := .notifying ⟨idNational, ⟨p.user.names, profile.birthdate, profile.nir⟩⟩ }
  else read

/-- `notify_pole_emploi` from the answer of the search. -/
def notifySave (found : Certificate) (now : DateTime) (row : Row) : Process × Row :=
  let profile :=
    { p.jobseekerProfile row with peObfuscatedNir := some found, peLastCertificationAttemptAt := some now }
  { p with profile := some profile, phase := .editing }.saveProfile
    (some [.peObfuscatedNir, .peLastCertificationAttemptAt]) row

/-- The searches of `pe_certify_users` for a user: the second one has the names swapped. -/
def certifySearch (profile : ProfileInstance) (now : DateTime) (response swapped : Option String) : Process :=
  let examined := { profile with peLastCertificationAttemptAt := some now }
  let search (names : Names) (idNational : String) : ProfileInstance :=
    { examined with peObfuscatedNir := some ⟨idNational, ⟨names, profile.birthdate, profile.nir⟩⟩ }
  match response, swapped with
  | some idNational, _ =>
      { p with profile := some (search p.user.names idNational), phase := .examined true false }
  | none, some idNational =>
      { user := { p.user with names := p.user.names.swap }
        profile := some (search p.user.names.swap idNational)
        phase := .examined true true }
  | none, none => { p with profile := some examined, phase := .examined false false }

/-- The `bulk_update`s at the end of `pe_certify_users`, which is one transaction. -/
def certifyUpdate (profile : ProfileInstance) (certified swapped : Bool) (row : Row) : Row :=
  let fields : List ProfileField :=
    if certified then [.peObfuscatedNir, .peLastCertificationAttemptAt] else [.peLastCertificationAttemptAt]
  let updated := profile.write (some fields) row
  if swapped then p.user.write (some [.firstName, .lastName]) updated else updated

end Process

/-- `RETRY_DELAY`, in days. -/
def retryDelay : Int := 7

/-- The selection of `pe_certify_users`. -/
def Row.IsEligible (row : Row) (now : DateTime) : Prop :=
  row.peObfuscatedNir = none ∧
    (∀ attempt ∈ row.peLastCertificationAttemptAt, ¬ { now with date := now.date - retryDelay } < attempt) ∧
    Process.HasUserData row.names row.birthdate row.nir

instance (row : Row) (now : DateTime) : Decidable (row.IsEligible now) :=
  inferInstanceAs (Decidable (_ ∧ (∀ _ ∈ _, _) ∧ _))

/-- The job seeker in the database, and the processes. -/
structure State where
  row : Row
  processes : Nat → Option Process

/-- What a process does next. -/
inductive Action where
  | loadUser (pid : Nat)
  | loadProfile (pid : Nat)
  | editUser (pid : Nat) (names : Names)
  | editProfile (pid : Nat) (birthdate : Option Int) (nir : String)
  | saveUser (pid : Nat) (updateFields : Option (List UserField))
  | saveProfile (pid : Nat) (updateFields : Option (List ProfileField))
  | notifySearch (pid : Nat) (response : Option String)
  | notifySave (pid : Nat) (now : DateTime)
  | certifySelect (pid : Nat) (now : DateTime)
  | certifySearch (pid : Nat) (now : DateTime) (response swapped : Option String)
  | certifyUpdate (pid : Nat)

namespace State

variable (s : State)

def set (pid : Nat) (p : Process) (row : Row) : State where
  row := row
  processes := Function.update s.processes pid (some p)

/-- The process, when it edits. -/
def editing (pid : Nat) : Option Process := do
  let p ← s.processes pid
  match p.phase with
  | .editing => some p
  | _ => none

def step : Action → Option State
  | .loadUser pid => match s.processes pid with
    | some _ => none
    | none => some (s.set pid ⟨.load s.row, none, .editing⟩ s.row)
  | .loadProfile pid => do
      let p ← s.editing pid
      some (s.set pid { p with profile := some (p.jobseekerProfile s.row) } s.row)
  | .editUser pid names => do
      let p ← s.editing pid
      some (s.set pid { p with user := { p.user with names } } s.row)
  | .editProfile pid birthdate nir => do
      let p ← s.editing pid
      some (s.set pid { p with profile := some { p.jobseekerProfile s.row with birthdate, nir } } s.row)
  | .saveUser pid updateFields => do
      let p ← s.editing pid
      let saved := p.saveUser updateFields s.row
      some (s.set pid saved.1 saved.2)
  | .saveProfile pid updateFields => do
      let p ← s.editing pid
      let saved := p.saveProfile updateFields s.row
      some (s.set pid saved.1 saved.2)
  | .notifySearch pid response => do
      let p ← s.editing pid
      some (s.set pid (p.notifySearch s.row response) s.row)
  | .notifySave pid now => do
      let p ← s.processes pid
      match p.phase with
      | .notifying found =>
          let saved := p.notifySave found now s.row
          some (s.set pid saved.1 saved.2)
      | _ => none
  | .certifySelect pid now => match s.processes pid with
    | some _ => none
    | none =>
        if s.row.IsEligible now then some (s.set pid ⟨.load s.row, some (.load s.row), .examining⟩ s.row) else none
  | .certifySearch pid now response swapped => do
      let p ← s.processes pid
      let profile ← p.profile
      match p.phase with
      | .examining => some (s.set pid (p.certifySearch profile now response swapped) s.row)
      | _ => none
  | .certifyUpdate pid => do
      let p ← s.processes pid
      let profile ← p.profile
      match p.phase with
      | .examined certified swapped =>
          some ⟨p.certifyUpdate profile certified swapped s.row, Function.update s.processes pid none⟩
      | _ => none

/-- A job seeker that is not certified. -/
def start (identity : Identity) : State where
  row := ⟨identity.names, identity.birthdate, identity.nir, none, none⟩
  processes := fun _ => none

end State

/-! ## What a run is judged by -/

/-- A save of the profile that detects no change: the certification that it puts back was obtained for the names of the
row, and the columns that it leaves are as they were when the others were read. -/
def ProfileInstance.UpToDate (profile : ProfileInstance) (updateFields : Option (List ProfileField)) (row : Row) :
    Prop :=
  if Writes updateFields .peObfuscatedNir then
    ∀ c ∈ profile.peObfuscatedNir, c.sent.names = row.names ∧
      (¬ Writes updateFields .birthdate → profile.birthdate = row.birthdate) ∧
      (¬ Writes updateFields .nir → profile.nir = row.nir)
  else
    row.peObfuscatedNir = none ∨
      (Writes updateFields .birthdate → profile.birthdate = row.birthdate) ∧
      (Writes updateFields .nir → profile.nir = row.nir)

/-- What a process writes with a certification, or under one, is what the row still has. -/
def State.NothingStale (s : State) : Action → Prop
  | .saveUser pid updateFields => ∀ p ∈ s.processes pid,
      p.user.HasDataChanged ∨ s.row.peObfuscatedNir = none ∨
        (Writes updateFields .firstName → p.user.names.firstName = s.row.names.firstName) ∧
        (Writes updateFields .lastName → p.user.names.lastName = s.row.names.lastName)
  | .saveProfile pid updateFields => ∀ p ∈ s.processes pid,
      (p.jobseekerProfile s.row).HasDataChanged ∨ (p.jobseekerProfile s.row).UpToDate updateFields s.row
  | .notifySave pid _ => ∀ p ∈ s.processes pid, match p.phase with
      | .notifying found => (p.jobseekerProfile s.row).HasDataChanged ∨ found.sent = s.row.identity
      | _ => True
  | .certifyUpdate pid => ∀ p ∈ s.processes pid, ∀ profile ∈ p.profile, match p.phase with
      | .examined true false => ∀ c ∈ profile.peObfuscatedNir, c.sent = s.row.identity
      | .examined true true => ∀ c ∈ profile.peObfuscatedNir,
          c.sent.birthdate = s.row.birthdate ∧ c.sent.nir = s.row.nir
      | _ => True
  | _ => True

end Itou.Certification
