import Itou.Approvals.Models
import Itou.JobApplications.Models

/-!
# Who can view the details of an approval

`can_view_approval_details`, with the flags that the middleware sets on a request and the queries on job
applications and assignments that it makes.
-/

namespace Itou.Approvals

open Itou.JobApplications

/-! ## Requests -/

/-- A request of a logged-in user. `ftWithoutFtOrganization` is a France Travail address without a
membership of a France Travail organization: the middleware then sets no flag. -/
structure Request where
  user : User
  ftWithoutFtOrganization : Bool
  currentOrganization : Option Organization
  deriving DecidableEq

namespace Request

/-- The organization that the flags of the middleware are about. -/
def organizationFlagged (r : Request) : Option Organization :=
  if r.user.isProfessional && !r.ftWithoutFtOrganization then r.currentOrganization else none

def fromEmployer (r : Request) : Bool :=
  match r.organizationFlagged with
  | some (.company _) => true
  | _ => false

def fromPrescriber (r : Request) : Bool :=
  match r.organizationFlagged with
  | some (.prescriber _) => true
  | _ => false

def fromAuthorizedPrescriber (r : Request) : Bool :=
  match r.organizationFlagged with
  | some (.prescriber p) => p.isAuthorized
  | _ => false

end Request

/-! ## Queries -/

/-- A row of `users_jobseekerassignment`. -/
structure JobSeekerAssignment where
  jobSeeker : Nat
  professional : Nat
  prescriberOrganization : Option Nat
  company : Option Nat
  deriving DecidableEq

/-- The tables that the permission is read from. -/
structure PermsDb where
  users : List User
  jobApplications : List JobApplication
  assignments : List JobSeekerAssignment

/-- `JobSeekerAssignmentManager.assigned_to`. -/
def PermsDb.assignedTo (db : PermsDb) (professional : Nat) (organization : Option Organization)
    (fromAllCoworkers : Bool) : List JobSeekerAssignment :=
  db.assignments.filter fun a =>
    (a.professional = professional && a.prescriberOrganization.isNone && a.company.isNone) ||
      match organization with
      | none => false
      | some organization =>
          let prescriberOrganization := match organization with
            | .prescriber p => some p.pk
            | _ => none
          let company := match organization with
            | .company c => some c.pk
            | _ => none
          (fromAllCoworkers || a.professional = professional) &&
            a.prescriberOrganization = prescriberOrganization && a.company = company

/-- `UserQuerySet.assigned_job_seeker_ids`, on all the users. -/
def PermsDb.assignedJobSeekerIds (db : PermsDb) (user : User) (organization : Option Organization)
    (fromAllCoworkers : Bool) : List Nat :=
  (db.users.filter fun u =>
    (db.assignedTo user.pk organization fromAllCoworkers).any fun a => a.jobSeeker = u.pk).map User.pk

/-- `JobApplicationQuerySet.prescriptions_of`. -/
def prescriptionsOf (applications : List JobApplication) (user : User) :
    Option Organization → Except String (List JobApplication)
  | organization =>
      if !user.isProfessional then .ok []
      else
        match organization with
        | none => .ok (applications.filter fun r => r.sender.any fun s => s.pk = user.pk)
        | some (.prescriber p) => .ok (applications.filter fun r =>
            (r.sender.any (fun s => s.pk = user.pk) && r.senderPrescriberOrganization.isNone) ||
              r.senderPrescriberOrganization.any fun o => o.pk = p.pk)
        | some (.company c) => .ok (applications.filter fun r =>
            r.senderCompany = some c.pk && r.toCompany.pk ≠ c.pk)
        | some (.institution _) => .error "Invalid organization kind"

/-! ## The permission -/

/-- `PERMS_READ` and `PERMS_READ_AND_WRITE`. -/
inductive Perms where
  | read
  | readAndWrite
  deriving DecidableEq

/-- `can_view_approval_details`. -/
def canViewApprovalDetails (db : PermsDb) (request : Request) (approval : Approval) :
    Except String (Option Perms) := do
  let jobApplications := db.jobApplications.filter fun r => r.jobSeeker.pk = approval.user
  if request.fromEmployer then
    let received := jobApplications.filter fun r => match request.currentOrganization with
      | some (.company c) => r.toCompany.pk = c.pk
      | _ => false
    let applicationStates := received.map JobApplication.state
    if applicationStates ≠ [] then
      if JobApplicationState.accepted ∈ applicationStates then return some .readAndWrite
      return some .read
    if (← prescriptionsOf jobApplications request.user request.currentOrganization) ≠ [] then
      return some .read
    return none
  else if request.fromPrescriber then
    -- The query ranges over all the job seekers of the prescriber: `approval.user` is not in it.
    if request.fromAuthorizedPrescriber ∧
        db.assignedJobSeekerIds request.user request.currentOrganization false ≠ [] then
      return some .read
    return none
  else if request.user.isJobSeeker then
    if approval.user = request.user.pk then return some .read
    return none
  else
    return none

/-! ## What a prescriber sees -/

theorem Request.not_fromEmployer_of_fromPrescriber {r : Request} (h : r.fromPrescriber = true) :
    r.fromEmployer = false := by
  unfold Request.fromPrescriber at h
  unfold Request.fromEmployer
  split at h
  · simp_all
  · simp at h

/-- The whole answer to a prescriber. -/
theorem canViewApprovalDetails_of_fromPrescriber {db : PermsDb} {request : Request} {approval : Approval}
    (h : request.fromPrescriber = true) :
    canViewApprovalDetails db request approval =
      .ok (if request.fromAuthorizedPrescriber ∧
        db.assignedJobSeekerIds request.user request.currentOrganization false ≠ [] then some .read else none) := by
  simp only [canViewApprovalDetails, Request.not_fromEmployer_of_fromPrescriber h, h, Bool.false_eq_true,
    ↓reduceIte]
  split <;> rfl

theorem Request.company_of_fromEmployer {r : Request} (h : r.fromEmployer = true) :
    r.user.isProfessional = true ∧ ∃ c, r.currentOrganization = some (.company c) := by
  unfold Request.fromEmployer Request.organizationFlagged at h
  split at h
  · rename_i c hc
    simp only [Option.ite_none_right_eq_some, Bool.and_eq_true] at hc
    exact ⟨hc.1.1, c, hc.2⟩
  · simp at h

/-- The queries never fail: an employer is logged in for a company. -/
theorem canViewApprovalDetails_isOk (db : PermsDb) (request : Request) (approval : Approval) :
    ∃ perms, canViewApprovalDetails db request approval = .ok perms := by
  cases hemployer : request.fromEmployer with
  | true =>
      obtain ⟨hpro, c, hc⟩ := Request.company_of_fromEmployer hemployer
      simp only [canViewApprovalDetails, hemployer, hpro, hc, prescriptionsOf, ↓reduceIte]
      split
      · split <;> exact ⟨_, rfl⟩
      · simp only [Bool.not_true, Bool.false_eq_true, ↓reduceIte, bind, Except.bind]
        split <;> exact ⟨_, rfl⟩
  | false =>
      simp only [canViewApprovalDetails, hemployer, Bool.false_eq_true, ↓reduceIte]
      split
      · split <;> exact ⟨_, rfl⟩
      · split
        · split <;> exact ⟨_, rfl⟩
        · exact ⟨_, rfl⟩

end Itou.Approvals
