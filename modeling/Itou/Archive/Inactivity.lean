import Itou.Lib.Notices

/-!
# Inactive users

`notify_inactive_jobseekers` and `anonymize_jobseekers` for the job seekers, `notify_inactive_professionals` and
`anonymize_professionals` for the professionals. The column `upcoming_deletion_notified_at` is the instant at which a user
was selected: whether it was sent the notice depends on the user.
-/

namespace Itou.Archive

open Itou.Lib

/-! ## Constants -/

def daysOfGrace : Int := 30

def expirationDays : Int := 365 * 2

def daysOfInactivity : Int := expirationDays - daysOfGrace

/-- `now - INACTIVITY_PERIOD`. -/
def inactiveSince (now : DateTime) : DateTime := now.addDays (-daysOfInactivity)

/-- An e-mail is sent to the users that are active, at their address: nothing leaves when they have none. -/
def shouldSend (isActive hasEmail : Bool) : Bool := isActive && hasEmail

/-! ## Job seekers -/

/-- A job application, with the timestamps of its logs. -/
structure Application where
  pk : Nat
  jobSeeker : Nat
  createdAt : DateTime
  logs : List DateTime
  deriving DecidableEq

/-- The columns of the job seekers, and the rows that refer to them: an approval and a diagnosis with their last day, a
membership of a follow-up group with its beneficiary and its last contact, the applications that are evaluated, the
orientations with their beneficiary. -/
structure JobSeekers where
  isActive : Nat → Bool
  hasEmail : Nat → Bool
  dateJoined : Nat → DateTime
  lastLogin : Nat → Option DateTime
  approvals : List (Nat × Int)
  eligibilityDiagnoses : List (Nat × Int)
  geiqEligibilityDiagnoses : List (Nat × Int)
  jobApplications : List Application
  followUpGroupMemberships : List (Nat × DateTime)
  evaluatedJobApplications : List Nat
  orientations : List Nat

namespace JobSeekers

variable (db : JobSeekers) (since : DateTime) (jobSeeker : Nat)

def recentApproval : Bool := db.approvals.any fun a => a.1 = jobSeeker && since.date < a.2

def recentEligibilityDiagnosis : Bool := db.eligibilityDiagnoses.any fun d => d.1 = jobSeeker && since.date < d.2

def recentGeiqEligibilityDiagnosis : Bool :=
  db.geiqEligibilityDiagnoses.any fun d => d.1 = jobSeeker && since.date < d.2

def recentJobApplication : Bool :=
  db.jobApplications.any fun a => a.jobSeeker = jobSeeker && (since < a.createdAt || a.logs.any (since < ·))

def recentFollowupGroupContact : Bool := db.followUpGroupMemberships.any fun m => m.1 = jobSeeker && since < m.2

def evaluatedJobApplication : Bool :=
  db.jobApplications.any fun a => a.jobSeeker = jobSeeker && a.pk ∈ db.evaluatedJobApplications

/-- `inactive_jobseekers_without_recent_related_objects`, but for the condition on the notice. -/
def inactiveWithoutRecentRelatedObjects : Bool :=
  (db.lastLogin jobSeeker).all (· ≤ since) && db.dateJoined jobSeeker ≤ since && !db.recentApproval since jobSeeker &&
    !db.recentEligibilityDiagnosis since jobSeeker && !db.recentGeiqEligibilityDiagnosis since jobSeeker &&
    !db.recentJobApplication since jobSeeker && !db.recentFollowupGroupContact since jobSeeker &&
    !db.evaluatedJobApplication jobSeeker

/-- The rows of the job seekers that are archived are deleted. -/
def archive (users : List Nat) : JobSeekers :=
  { db with
    approvals := db.approvals.filter (·.1 ∉ users)
    eligibilityDiagnoses := db.eligibilityDiagnoses.filter (·.1 ∉ users)
    geiqEligibilityDiagnoses := db.geiqEligibilityDiagnoses.filter (·.1 ∉ users)
    jobApplications := db.jobApplications.filter (·.jobSeeker ∉ users)
    followUpGroupMemberships := db.followUpGroupMemberships.filter (·.1 ∉ users) }

end JobSeekers

/-- The commands on job seekers, when a run takes at most `longest` days. -/
def jobSeekers (longest : Int) : Notices JobSeekers Nat where
  grace := daysOfGrace
  longest := longest
  dormant db now k := db.inactiveWithoutRecentRelatedObjects (inactiveSince now) k
  shouldSend db k := shouldSend (db.isActive k) (db.hasEmail k)
  stands db now _ k := db.inactiveWithoutRecentRelatedObjects (inactiveSince now) k
  order db k l := db.dateJoined k < db.dateJoined l || (db.dateJoined k = db.dateJoined l && k ≤ l)
  skipLocked := false
  last _ _ := false
  leaves _ _ := true
  -- `Orientation.beneficiary` is restricted, and the command deletes no orientation.
  blocked db k := k ∈ db.orientations
  archive := JobSeekers.archive

/-! ## Professionals -/

/-- The columns of the professionals, who has rows that block a deletion, and whose deletion takes rows that others
restrict. -/
structure Professionals where
  isActive : Nat → Bool
  hasEmail : Nat → Bool
  lastLogin : Nat → Option DateTime
  hasBlockingRelations : Nat → Bool
  cascadeIsRestricted : Nat → Bool

/-- The professionals that cannot be deleted are anonymised, unless they are already: they become inactive and lose their
e-mail. -/
def Professionals.archive (db : Professionals) (users : List Nat) : Professionals :=
  { db with
    isActive := fun k => if k ∈ users && db.hasBlockingRelations k && db.hasEmail k then false else db.isActive k
    hasEmail := fun k => if k ∈ users && db.hasBlockingRelations k then false else db.hasEmail k }

/-- The commands on professionals, when a run takes at most `longest` days. -/
def professionals (longest : Int) : Notices Professionals Nat where
  grace := daysOfGrace
  longest := longest
  dormant db now k := (db.lastLogin k).any (· < inactiveSince now)
  shouldSend db k := shouldSend (db.isActive k) (db.hasEmail k)
  stands db _ notifiedAt k := !(db.lastLogin k).any (notifiedAt ≤ ·)
  order _ _ _ := true
  skipLocked := true
  last db k := !db.hasEmail k
  leaves db k := !db.hasBlockingRelations k
  blocked db k := !db.hasBlockingRelations k && db.cascadeIsRestricted k
  archive := Professionals.archive

end Itou.Archive
