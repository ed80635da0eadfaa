import Itou.Archive.Inactivity
import Itou.Archive.Lemmas.Utils

/-!
# Theorems on the archiving of inactive users
-/

namespace Itou.Archive

open Itou.Lib Notices

/-! ## Nobody is archived who was not selected -/

/-- A job seeker is archived at least the grace period after it was selected, after a whole period of inactivity, and was
sent the notice then if it was active and had an e-mail; the command that archives has found a whole period of inactivity
again. -/
structure JobSeekerNotified (longest : Int) (s : State JobSeekers Nat) (a : Archived JobSeekers Nat) : Prop where
  selection : ∃ n ∈ s.selected, n.user = a.user ∧ n.selectedAt.addDays daysOfGrace ≤ a.archivedAt ∧
    n.data.inactiveWithoutRecentRelatedObjects (inactiveSince n.selectedAt) a.user = true ∧
    (n.data.isActive a.user = true → n.data.hasEmail a.user = true → n ∈ (jobSeekers longest).sent s)
  check : a.check.data.inactiveWithoutRecentRelatedObjects (inactiveSince a.check.checkedAt) a.user = true
  recent : a.check.checkedAt ≤ a.archivedAt ∧ a.archivedAt < a.check.checkedAt.addDays longest

/-- In every state that is reached, by any steps of the commands, any activity between their statements, job seekers who
register or leave, and reactivations, each job seeker that was archived had been selected, and sent a notice if possible. -/
theorem jobSeekerNotified_of_run (longest : Int) (hlongest : longest + longest ≤ daysOfGrace) (now : DateTime)
    (db : JobSeekers) (users : List Nat) (husers : users.Nodup) (labels : List (Label JobSeekers Nat))
    (s : State JobSeekers Nat)
    (hrun : run (jobSeekers longest).step (State.init now db users) labels = some s) :
    ∀ a ∈ s.archived, JobSeekerNotified longest s a := by
  intro a ha
  have h : (jobSeekers longest).Inv s := (inv_init husers).run hlongest hrun
  obtain ⟨⟨n, hn, huser, hselected, hdormant⟩, hgrace, hstands, hchecked⟩ := h.archived a ha
  rw [← hselected] at hgrace
  rw [huser] at hdormant
  refine ⟨⟨n, hn, huser, hgrace, hdormant, fun hactive hemail => mem_sent.mpr ⟨hn, ?_⟩⟩, hstands, hchecked⟩
  rw [huser]
  exact Bool.and_eq_true_iff.mpr ⟨hactive, hemail⟩

/-- Job seekers who joined on day 0, of whom the third is inactive, and of whom nothing else is known. -/
def neverCameBack : JobSeekers where
  isActive := (· ≠ 3)
  hasEmail _ := true
  dateJoined _ := ⟨0, 0⟩
  lastLogin _ := none
  approvals := []
  eligibilityDiagnoses := []
  geiqEligibilityDiagnoses := []
  jobApplications := []
  followUpGroupMemberships := []
  evaluatedJobApplications := []
  orientations := []

/-- Three job seekers are selected on day 1000; the first and the third, who was sent nothing, are archived 31 days
later. -/
def twoArchived : List (Label JobSeekers Nat) :=
  [.notify 200 [1, 2, 3], .record 0, .tick ⟨1031, 0⟩, .reset, .archive 0 2 [] [1, 3]]

theorem jobSeekerNotified_twoArchived :
    (run (jobSeekers 1).step (State.init ⟨1000, 0⟩ neverCameBack [1, 2, 3]) twoArchived).map
        (fun s => (s.archived.map Archived.user, ((jobSeekers 1).sent s).map Selection.user)) = some ([1, 3], [1, 2]) ∧
      ∀ s ∈ run (jobSeekers 1).step (State.init ⟨1000, 0⟩ neverCameBack [1, 2, 3]) twoArchived,
        ∀ a ∈ s.archived, JobSeekerNotified 1 s a :=
  ⟨by decide, fun s hs => jobSeekerNotified_of_run 1 (by decide) ⟨1000, 0⟩ neverCameBack [1, 2, 3] (by decide)
    twoArchived s hs⟩

/-- A professional is archived at least the grace period after it was selected, after a whole period without a login, and
was sent the notice then if it was active and had an e-mail; the command that archives has found no login since. -/
structure ProfessionalNotified (longest : Int) (s : State Professionals Nat) (a : Archived Professionals Nat) :
    Prop where
  selection : ∃ n ∈ s.selected, n.user = a.user ∧ n.selectedAt.addDays daysOfGrace ≤ a.archivedAt ∧
    (∃ login ∈ n.data.lastLogin a.user, login < inactiveSince n.selectedAt) ∧
    (n.data.isActive a.user = true → n.data.hasEmail a.user = true → n ∈ (professionals longest).sent s) ∧
    ∀ login ∈ a.check.data.lastLogin a.user, login < n.selectedAt
  recent : a.check.checkedAt ≤ a.archivedAt ∧ a.archivedAt < a.check.checkedAt.addDays longest

/-- The same of professionals, deleted or anonymised, once or several times. -/
theorem professionalNotified_of_run (longest : Int) (hlongest : longest + longest ≤ daysOfGrace) (now : DateTime)
    (db : Professionals) (users : List Nat) (husers : users.Nodup) (labels : List (Label Professionals Nat))
    (s : State Professionals Nat)
    (hrun : run (professionals longest).step (State.init now db users) labels = some s) :
    ∀ a ∈ s.archived, ProfessionalNotified longest s a := by
  intro a ha
  have h : (professionals longest).Inv s := (inv_init husers).run hlongest hrun
  obtain ⟨⟨n, hn, huser, hselected, hdormant⟩, hgrace, hstands, hchecked⟩ := h.archived a ha
  rw [← hselected] at hgrace hstands
  rw [huser] at hdormant
  obtain ⟨login, hlogin, hlt⟩ := (Option.any_eq_true _ _).mp hdormant
  refine ⟨⟨n, hn, huser, hgrace, ⟨login, hlogin, of_decide_eq_true hlt⟩,
    fun hactive hemail => mem_sent.mpr ⟨hn, ?_⟩, fun login hlogin => ?_⟩, hchecked⟩
  · rw [huser]
    exact Bool.and_eq_true_iff.mpr ⟨hactive, hemail⟩
  · have hnone : ¬ n.selectedAt ≤ login := by
      intro hle
      have hany : (a.check.data.lastLogin a.user).any (n.selectedAt ≤ ·) = true :=
        (Option.any_eq_true _ _).mpr ⟨login, hlogin, decide_eq_true hle⟩
      simp only [professionals, hany, Bool.not_true, Bool.false_eq_true] at hstands
    exact not_le.mp hnone

/-- Professionals who logged in on day 0; the first has rows that block a deletion. -/
def loggedInOnce : Professionals where
  isActive _ := true
  hasEmail _ := true
  lastLogin _ := some ⟨0, 0⟩
  hasBlockingRelations := (· = 1)
  cascadeIsRestricted _ := false

/-- Both are archived, when the second logs in after the check; the first only loses its e-mail, and is archived again
after the second run. -/
def anonymisedTwice : List (Label Professionals Nat) :=
  [.notify 200 [2, 1], .record 0, .tick ⟨1031, 0⟩, .reset,
    .change { loggedInOnce with lastLogin := fun k => if k = 2 then some ⟨1031, 0⟩ else some ⟨0, 0⟩ },
    .archive 0 200 [] [1, 2], .reset, .archive 0 200 [] [1]]

theorem professionalNotified_anonymisedTwice :
    (run (professionals 1).step (State.init ⟨1000, 0⟩ loggedInOnce [1, 2]) anonymisedTwice).map
        (fun s => s.archived.map Archived.user) = some [1, 2, 1] ∧
      ∀ s ∈ run (professionals 1).step (State.init ⟨1000, 0⟩ loggedInOnce [1, 2]) anonymisedTwice,
        ∀ a ∈ s.archived, ProfessionalNotified 1 s a :=
  ⟨by decide, fun s hs => professionalNotified_of_run 1 (by decide) ⟨1000, 0⟩ loggedInOnce [1, 2] (by decide)
    anonymisedTwice s hs⟩

/-! ## Waiting -/

/-- From any state that is reached, along any run in which a job seeker past the grace period stays notified and is not
archived, the batches of the archivings that succeed add up to at most the number of job seekers who were not notified
later. -/
theorem sum_batch_le_ahead (longest : Int) (hlongest : longest + longest ≤ daysOfGrace) (now : DateTime)
    (db : JobSeekers) (users : List Nat) (husers : users.Nodup) (before after : List (Label JobSeekers Nat))
    (s s' : State JobSeekers Nat)
    (hbefore : run (jobSeekers longest).step (State.init now db users) before = some s)
    (hafter : run (jobSeekers longest).step s after = some s') (k : Nat) (t : DateTime)
    (hwaits : AllStates (jobSeekers longest).step ((jobSeekers longest).Waits k t) s after) :
    (after.map Label.batch).sum + (ahead k t s').length ≤ (ahead k t s).length := by
  have h : (jobSeekers longest).Inv s := (inv_init husers).run hlongest hbefore
  have hle : longest ≤ daysOfGrace := by
    simp only [daysOfGrace] at hlongest ⊢
    omega
  exact sum_batch_le hlongest hle rfl (fun _ _ => rfl) (fun _ _ => rfl) h hafter hwaits

/-- The state in which three job seekers are due. -/
def threeDue : State JobSeekers Nat :=
  (run (jobSeekers 1).step (State.init ⟨1000, 0⟩ neverCameBack [1, 2, 3])
    [.notify 200 [1, 2, 3], .record 0, .tick ⟨1031, 0⟩]).get (by decide)

/-- The second waits while a run fails, and while the first, notified at the same time, is archived. -/
def failedOnce : List (Label JobSeekers Nat) := [.reset, .fail 0, .reset, .archive 0 1 [] [1]]

theorem sum_batch_le_ahead_failedOnce :
    (run (jobSeekers 1).step threeDue failedOnce).map (fun s => s.archived.map Archived.user) = some [1] ∧
      ∀ s' ∈ run (jobSeekers 1).step threeDue failedOnce, 1 + (ahead 2 ⟨1000, 0⟩ s').length ≤ 2 :=
  ⟨by decide, fun s' hs' => sum_batch_le_ahead 1 (by decide) ⟨1000, 0⟩ neverCameBack [1, 2, 3] (by decide)
    [.notify 200 [1, 2, 3], .record 0, .tick ⟨1031, 0⟩] failedOnce threeDue s' (Option.some_get _).symm hs' 2 ⟨1000, 0⟩
    (by decide)⟩

/-- While the first job seeker to be archived has an orientation, which nothing deletes, an archiving that takes anybody
raises: the others wait, whatever the size of the batch. -/
theorem archive_eq_none_of_orientation (longest : Int) (s : State JobSeekers Nat) (k : Nat) (t : DateTime)
    (hwaits : (jobSeekers longest).Waits k t s) (hahead : ahead k t s = []) (horientation : k ∈ s.data.orientations)
    (i batch : Nat) (hcleared : ∀ check, s.checking[i]? = some check → k ∉ check.cleared) (locked users : List Nat) :
    (jobSeekers longest).step s (.archive i (batch + 1) locked users) = none :=
  archive_eq_none rfl (fun _ _ => rfl) hwaits hahead (decide_eq_true horientation) hcleared batch locked users

/-! ## The users that are kept -/

open Itou.Lib.Deletions Itou.Relations

/-- The users that are kept can be deleted together when no row refers to their diagnoses. -/
theorem deleteUsers_succeeds_iff (db : Database) (qs users : List Nat)
    (hkept : ∀ pk ∈ users, pk ∈ excludeUsersWithBlockingRelations db qs) :
    (∃ db', deleteUsers db users = .ok db') ↔ ∀ pk ∈ users, DiagnosesAreUnused db pk := by
  rw [deleteUsers, Database.delete_succeeds_iff]
  constructor
  · rintro ⟨-, hrestricted, -⟩ pk hpk
    by_contra hused
    exact hrestricted (restricted_of_used hpk hused)
  · intro hunused
    refine ⟨?_, ?_, Schema.accepts_survivors db.accepted fun row hrow => ?_⟩
    · rintro ⟨row, hrow, hprotect⟩
      exact not_refersTo hkept hunused hrow (show OnDelete.protect ≠ .cascade by decide) hprotect
    · rintro ⟨row, hrow, -, hrestrict⟩
      exact not_refersTo hkept hunused hrow (show OnDelete.restrict ≠ .cascade by decide) hrestrict
    · exact not_refersTo hkept hunused hrow nofun

/-- An approval of the second user refers to the diagnosis of the first one, which the third one made. -/
def inconsistentDiagnosis : Database where
  rows := [⟨.user, 1, [], {}⟩, ⟨.user, 2, [], {}⟩, ⟨.user, 3, [], {}⟩,
    ⟨.eligibilityDiagnosis, 10, [(.eligibilityDiagnosisJobSeeker, 1), (.eligibilityDiagnosisAuthor, 3)], {}⟩,
    ⟨.approval, 20, [(.approvalUser, 2), (.approvalEligibilityDiagnosis, 10)], {}⟩]
  nodup := by decide
  formed := by decide
  accepted := by decide

theorem deleteUsers_inconsistentDiagnosis : 1 ∈ excludeUsersWithBlockingRelations inconsistentDiagnosis [1] ∧
    deleteUsers inconsistentDiagnosis [1] = .error .restrictedError :=
  ⟨by decide, rfl⟩

/-- Once that approval refers to no diagnosis. -/
def consistentDiagnosis : Database where
  rows := [⟨.user, 1, [], {}⟩, ⟨.user, 2, [], {}⟩, ⟨.user, 3, [], {}⟩,
    ⟨.eligibilityDiagnosis, 10, [(.eligibilityDiagnosisJobSeeker, 1), (.eligibilityDiagnosisAuthor, 3)], {}⟩,
    ⟨.approval, 20, [(.approvalUser, 2)], {}⟩]
  nodup := by decide
  formed := by decide
  accepted := by decide

theorem deleteUsers_consistentDiagnosis : (∀ pk ∈ [1], pk ∈ excludeUsersWithBlockingRelations consistentDiagnosis [1]) ∧
    ((∃ db', deleteUsers consistentDiagnosis [1] = .ok db') ↔ ∀ pk ∈ [1], DiagnosesAreUnused consistentDiagnosis pk) :=
  ⟨by decide, deleteUsers_succeeds_iff consistentDiagnosis [1] [1] (by decide)⟩

end Itou.Archive
