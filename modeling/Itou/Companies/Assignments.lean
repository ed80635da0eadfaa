import Itou.Companies.Models

/-!
# Assignments of the job seekers

`JobSeekerAssignmentManager.upsert_assignment` and `merge_job_seeker_assignments`. A statement that the constraints
refuse, and an assertion that fails, give `none`.
-/

namespace Itou.Companies

open Itou.Lib

abbrev Assignments := KeyedTable JobSeekerAssignment.columns

/-- The job seeker, the professional and the organization of a call to `upsert_assignment`. -/
structure AssignmentKey where
  jobSeeker : User
  professional : User
  organization : AssignedTo
  deriving DecidableEq

def AssignmentKey.columns (key : AssignmentKey) : Nat × Nat × AssignedTo :=
  (key.jobSeeker.pk, key.professional.pk, key.organization)

/-- The other columns that the call writes. `created_at` and `updated_at` are two readings of the clock. -/
structure Action where
  createdAt : Int
  updatedAt : Int
  lastActionKind : String
  assignedToUnknownAdvisor : Bool
  deriving DecidableEq

/-- The columns of a row outside its keys. -/
def JobSeekerAssignment.action (a : JobSeekerAssignment) : Action :=
  ⟨a.createdAt, a.updatedAt, a.lastActionKind, a.assignedToUnknownAdvisor⟩

/-- The row to create. -/
def Action.assignment (action : Action) (pk : Nat) (key : AssignmentKey) : JobSeekerAssignment where
  pk := pk
  jobSeeker := key.jobSeeker.pk
  professional := key.professional.pk
  organization := key.organization
  createdAt := action.createdAt
  updatedAt := action.updatedAt
  lastActionKind := action.lastActionKind
  assignedToUnknownAdvisor := action.assignedToUnknownAdvisor

/-- `update_fields`. -/
def Action.write (action : Action) (a : JobSeekerAssignment) : JobSeekerAssignment :=
  { a with
    updatedAt := action.updatedAt
    lastActionKind := action.lastActionKind
    assignedToUnknownAdvisor := action.assignedToUnknownAdvisor }

/-- `prescriber_organization_or_company_not_null_if_unknown_advisor`. -/
def Action.isRefused (action : Action) (key : AssignmentKey) : Bool :=
  action.assignedToUnknownAdvisor && key.organization = .nobody

def upsertAssignment (t : Assignments) (key : AssignmentKey) (action : Action) : Option Assignments :=
  if !key.jobSeeker.isJobSeeker then none
  else if !key.professional.isProfessional then some t
  else if action.isRefused key then none
  else t.insertOrModify (action.assignment t.freshPk key) action.write fun _ => ⟨rfl, rfl⟩

/-- The calls, one after the other. -/
def applyCalls (t : Assignments) (calls : List (AssignmentKey × Action)) : Option Assignments :=
  calls.foldlM (fun t call => upsertAssignment t call.1 call.2) t

/-- The columns that `merge_job_seeker_assignments` updates. -/
def JobSeekerAssignment.take (merged r : JobSeekerAssignment) : JobSeekerAssignment :=
  { r with
    createdAt := merged.createdAt
    updatedAt := merged.updatedAt
    lastActionKind := merged.lastActionKind }

/-- `merge_job_seeker_assignments`. -/
def mergeAssignments (t : Assignments) (assignmentToDelete assignmentToKeep : JobSeekerAssignment) : Assignments :=
  let merged := mergeJobSeekerAssignments assignmentToDelete assignmentToKeep
  (t.modify (fun r => r.pk = assignmentToKeep.pk) merged.take fun _ => ⟨rfl, rfl⟩).delete
    fun r => r.pk = assignmentToDelete.pk

/-! ## Histories -/

/-- What one action after another amounts to. -/
def Action.followedBy (action next : Action) : Action := { next with createdAt := action.createdAt }

/-- What a history amounts to. -/
def summary (actions : List Action) : Option Action :=
  actions.foldl (fun acc next => some (acc.elim next (·.followedBy next))) none

def actionsOn (key : AssignmentKey) (calls : List (AssignmentKey × Action)) : List Action :=
  (calls.filter fun call => call.1 = key).map Prod.snd

/-- The same calls, on one key. -/
def replayOn (key : AssignmentKey) (calls : List (AssignmentKey × Action)) : List (AssignmentKey × Action) :=
  calls.map fun call => (key, call.2)

/-- The clock does not go back. -/
def Chronological (calls : List (AssignmentKey × Action)) : Prop :=
  calls.Pairwise fun call next => call.2.createdAt ≤ next.2.createdAt ∧ call.2.updatedAt ≤ next.2.updatedAt

/-! ## Two rows in one -/

section Merge

variable (t t' : Assignments) (toDelete toKeep : AssignmentKey) (calls : List (AssignmentKey × Action))
  (d k : JobSeekerAssignment)

/-- The merge gives the row that all the calls leave when they are made on the key that is kept. -/
def MergeReplays : Prop :=
  ∃ t'' replayed merged, applyCalls t (replayOn toKeep calls) = some t'' ∧ t''.row toKeep.columns = some replayed ∧
    (mergeAssignments t' d k).row toKeep.columns = some merged ∧ merged.action = replayed.action

/-- The merge gives the same row when the other one is kept. -/
def MergeSymmetric : Prop :=
  ((mergeAssignments t' d k).row toKeep.columns).map (·.action) =
    ((mergeAssignments t' k d).row toDelete.columns).map (·.action)

/-- The last of all the calls is, for the advisor, like the last one on the key that is kept. Where the last calls on
both keys have one date, it is, for the kind, like the last one on the other key. -/
structure LastActionKept : Prop where
  organization : toKeep.organization = .nobody → ∀ call ∈ calls, call.2.assignedToUnknownAdvisor = false
  advisor : ∀ last ∈ calls.getLast?, ∀ kept ∈ (actionsOn toKeep calls).getLast?,
    last.2.assignedToUnknownAdvisor = kept.assignedToUnknownAdvisor
  kind : ∀ last ∈ calls.getLast?, ∀ deleted ∈ (actionsOn toDelete calls).getLast?,
    ∀ kept ∈ (actionsOn toKeep calls).getLast?, deleted.updatedAt = kept.updatedAt →
      last.2.lastActionKind = deleted.lastActionKind

/-- The last calls on both keys are alike. -/
def LastActionsAlike : Prop :=
  ∀ deleted ∈ (actionsOn toDelete calls).getLast?, ∀ kept ∈ (actionsOn toKeep calls).getLast?,
    deleted.assignedToUnknownAdvisor = kept.assignedToUnknownAdvisor ∧
      (deleted.updatedAt = kept.updatedAt → deleted.lastActionKind = kept.lastActionKind)

end Merge

end Itou.Companies
