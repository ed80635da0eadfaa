import Itou.Approvals.Models
import Itou.Users

/-!
# Prolongations and requests for a prolongation

A prolongation is declared by the employer, or granted by a prescriber who was asked for it. Each statement of a view
that a constraint refuses is rolled back with the whole view.
-/

namespace Itou.Prolongations

open Itou.Lib Itou.Approvals

/-! ## Rows -/

/-- `ProlongationReason`. -/
inductive Reason where
  | seniorCdi
  | completeTraining
  | rqth
  | senior
  | particularDifficulties
  | healthContext
  deriving DecidableEq

/-- `ProlongationRequestStatus`. -/
inductive Status where
  | pending
  | granted
  | denied
  deriving DecidableEq

/-- `ProlongationRequestDenyReason`. -/
inductive DenyReason where
  | iae
  | siae
  | duration
  | reason
  deriving DecidableEq

/-- The columns of `CommonProlongation`. -/
structure CommonProlongation extends Period where
  reason : Reason
  reasonExplanation : String
  declaredBy : Option Nat
  declaredBySiae : Option Nat
  prescriberOrganization : Option Nat
  createdBy : Option Nat
  updatedBy : Option Nat
  reportFile : Option Nat
  requirePhoneInterview : Bool
  contactEmail : String
  contactPhone : String
  deriving DecidableEq

structure ProlongationRequest extends CommonProlongation where
  status : Status
  assignedTo : Nat
  processedAt : Option DateTime
  processedBy : Option Nat
  deriving DecidableEq

structure Prolongation extends CommonProlongation where
  request : Option Nat
  validatedBy : Option Nat
  deriving DecidableEq

/-- `ProlongationRequestDenyInformation`. -/
structure DenyInformation where
  request : Nat
  reason : DenyReason
  reasonExplanation : String
  proposedActions : Option (List String)
  proposedActionsExplanation : String
  deriving DecidableEq

structure Db where
  approvals : Table Approval
  prolongations : Table Prolongation
  requests : Table ProlongationRequest
  denyInformations : Table DenyInformation

/-! ## `PROLONGATION_RULES` -/

/-- `max_duration`, in days. -/
def Reason.maxDuration : Reason → Int
  | .seniorCdi => 10 * 365
  | .completeTraining | .rqth | .senior | .particularDifficulties | .healthContext => 365

/-- `max_cumulative_duration`, in days. -/
def Reason.maxCumulativeDuration : Reason → Option Int
  | .seniorCdi | .completeTraining => none
  | .rqth | .particularDifficulties => some (3 * 365)
  | .senior => some (5 * 365)
  | .healthContext => some 365

/-- `REASONS_NOT_NEED_PRESCRIBER_OPINION`. -/
def Reason.needsPrescriberOpinion (reason : Reason) : Bool := reason ∉ [Reason.seniorCdi, .completeTraining]

/-- `PROLONGATION_REPORT_FILE_REASONS`. -/
def Reason.allowsReportFile (reason : Reason) : Bool := reason ∈ [Reason.rqth, .senior, .particularDifficulties]

/-- `ProlongationReason.for_company`. -/
def Reason.forCompany (company : Company) : List Reason :=
  [.seniorCdi, .completeTraining, .rqth, .senior] ++
    if company.kind ∈ [CompanyKind.ai, CompanyKind.aci] then [.particularDifficulties] else []

/-! ## Durations -/

/-- The prolongations of an approval. -/
def Db.prolongationsOf (db : Db) (approval : Nat) : List Prolongation :=
  db.prolongations.rows.filter fun p => p.approvalId = approval

/-- `get_cumulative_duration_for`. -/
def Db.cumulativeDuration (db : Db) (approval : Nat) : Int := ((db.prolongationsOf approval).map (·.duration)).sum

/-- `CommonProlongation.get_max_end_at`. -/
def Db.maxEndAt (db : Db) (approval : Nat) (startAt : Int) (reason : Reason) : Int :=
  match reason.maxCumulativeDuration with
  | none => startAt + reason.maxDuration
  | some maxCumulativeDuration => startAt + (maxCumulativeDuration - db.cumulativeDuration approval)

/-! ## Constraints -/

/-- `check_%(class)s_reason_and_report_file_coherence`. -/
def CommonProlongation.hasCoherentReport (p : CommonProlongation) : Bool := p.reportFile.isNone || p.reason.allowsReportFile

/-- The periods of two prolongations meet: `exclude_prolongation_overlapping_dates`, on ranges without their upper
bound. An empty range meets nothing. -/
def Period.overlaps (p q : Period) : Bool :=
  p.approvalId = q.approvalId && p.startAt < q.endAt && q.startAt < p.endAt &&
    p.startAt < p.endAt && q.startAt < q.endAt

/-- The constraints of a new prolongation: a range in order, which meets no other, and the unique columns `request`
and `report_file`. -/
def Prolongation.constraints (others : Table Prolongation) (p : Prolongation) : Bool :=
  p.startAt ≤ p.endAt && p.hasCoherentReport &&
    others.rows.all fun o =>
      !Period.overlaps o.toPeriod p.toPeriod && (p.request.isNone || o.request ≠ p.request) &&
        (p.reportFile.isNone || o.reportFile ≠ p.reportFile)

/-- The constraints of a new request: `unique_prolongationrequest_approval_for_pending`,
`check_prolongationrequest_require_phone_interview`, and the unique column `report_file`. -/
def ProlongationRequest.constraints (others : Table ProlongationRequest) (r : ProlongationRequest) : Bool :=
  r.hasCoherentReport && (!r.requirePhoneInterview || (r.contactEmail ≠ "" && r.contactPhone ≠ "")) &&
    others.rows.all fun o =>
      (r.status ≠ .pending || o.status ≠ .pending || o.approvalId ≠ r.approvalId) &&
        (r.reportFile.isNone || o.reportFile ≠ r.reportFile)

/-! ## Statements -/

/-- A primary key that no row has. -/
def freshKey {ρ : Type} (t : Table ρ) : Nat := t.keys.max?.getD 0 + 1

/-- `INSERT` of a prolongation, with its trigger on the approval. -/
def Db.insertProlongation (db : Db) (now : DateTime) (p : Prolongation) : Option Db :=
  (execOn (fun p => p.toPeriod) Prolongation.constraints (updateApprovalEndAt (fun p => p.toPeriod) now)
    db.approvals db.prolongations (.insert (freshKey db.prolongations) p)).map
    fun (approvals, prolongations) => { db with approvals, prolongations }

/-- `INSERT` of a request. -/
def Db.insertRequest (db : Db) (r : ProlongationRequest) : Option Db :=
  if r.approvalId ∈ db.approvals ∧ r.constraints db.requests then
    some { db with requests := db.requests.insert (freshKey db.requests) r }
  else none

/-- `INSERT` of a deny information, whose column `request` is unique. The list of proposed actions is not empty. -/
def Db.insertDenyInformation (db : Db) (information : DenyInformation) : Option Db :=
  if information.request ∈ db.requests ∧ information.proposedActions ≠ some [] ∧
      db.denyInformations.rows.all fun other => other.request ≠ information.request then
    some { db with denyInformations := db.denyInformations.insert (freshKey db.denyInformations) information }
  else none

/-! ## Answers -/

/-- `Prolongation.from_prolongation_request`. -/
def Prolongation.fromProlongationRequest (pk : Nat) (r : ProlongationRequest) : Prolongation :=
  { r.toCommonProlongation with updatedBy := none, request := some pk, validatedBy := r.processedBy }

/-- `self.save()`, of a request that was read before. -/
def Db.saveRequest (db : Db) (pk : Nat) (r : ProlongationRequest) : Db :=
  { db with requests := db.requests.insert pk r }

/-- What both answers set. -/
def ProlongationRequest.answered (self : ProlongationRequest) (status : Status) (user : Nat) (now : DateTime) :
    ProlongationRequest :=
  { self with status, processedBy := some user, processedAt := some now, updatedBy := some user }

/-- `ProlongationRequest.grant`, on an instance. -/
def Db.grant (db : Db) (now : DateTime) (pk : Nat) (self : ProlongationRequest) (user : Nat) : Option Db :=
  let self := self.answered .granted user now
  (db.insertProlongation now (Prolongation.fromProlongationRequest pk self)).map fun db => db.saveRequest pk self

/-- `ProlongationRequest.deny`, on an instance. -/
def Db.deny (db : Db) (now : DateTime) (pk : Nat) (self : ProlongationRequest) (user : Nat)
    (information : DenyInformation) : Option Db :=
  let self := self.answered .denied user now
  (db.insertDenyInformation { information with request := pk }).map fun db => db.saveRequest pk self

end Itou.Prolongations
