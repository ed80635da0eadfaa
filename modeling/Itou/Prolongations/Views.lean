import Itou.Lib.Runs
import Itou.Prolongations.Models

/-!
# Declaring a prolongation, and answering a request

Several views run at once. Each one reads a row, and writes later what it makes of the row that it read: in between,
the others write too. A constraint makes the second of two writers wait for the first, so that the statements of a
view stand for one step. `addMonths` is `relativedelta`.

What is known of the instance of a valid form, when the form is validated.
-/

namespace Itou.Prolongations

open Itou.Lib Itou.Approvals

/-! ## `declare_prolongation` -/

/-- What the view finds in other tables: whether the company hired with this approval, whether the approval is the
latest of its user, and whether it is suspended. -/
structure Elsewhere where
  hired : Bool
  isLatestApproval : Bool
  isSuspended : Bool
  deriving DecidableEq

/-- The data of the form. `assignedTo` is the authorized prescriber who has the email of the form, and
`prescriberOrganization` is one of the authorized organizations of that email. -/
structure FormData where
  reason : Reason
  endAt : Int
  assignedTo : Option Nat
  prescriberOrganization : Option Nat
  requirePhoneInterview : Bool
  contactEmail : String
  contactPhone : String
  deriving DecidableEq

/-- The instance of a valid form. -/
inductive Instance where
  | prolongation (prolongation : Prolongation)
  | request (request : ProlongationRequest)
  deriving DecidableEq

def Instance.toCommonProlongation : Instance → CommonProlongation
  | .prolongation p => p.toCommonProlongation
  | .request r => r.toCommonProlongation

section Declaration

variable (addMonths : Int → Int → Int) (db : Db)

/-- `Approval.pending_prolongation_request`. -/
def Db.hasPendingRequest (approval : Nat) : Bool :=
  db.requests.rows.any fun r => r.approvalId = approval && r.status = .pending

/-- `Approval.can_be_prolonged`. -/
def Db.canBeProlonged (approval : Nat) (endAt today : Int) (elsewhere : Elsewhere) : Bool :=
  addMonths endAt (-12) ≤ today && today ≤ addMonths endAt 6 && elsewhere.isLatestApproval &&
    !elsewhere.isSuspended && !db.hasPendingRequest approval

/-- The choices of `reason`, less those whose limit is reached. -/
def Db.reasonChoices (approval : Nat) (siae : Company) : List Reason :=
  (Reason.forCompany siae).filter fun reason =>
    reason.maxCumulativeDuration.all fun limit => decide (db.cumulativeDuration approval < limit)

/-- The validators of the field `end_at`. -/
def Db.acceptsEndAt (approval : Nat) (startAt : Int) (reason : Reason) (endAt : Int) : Bool :=
  startAt ≤ endAt && endAt ≤ min (startAt + reason.maxDuration) (db.maxEndAt approval startAt reason)

/-- `CommonProlongation.clean`, on a new instance whose `declared_by` is not set yet. -/
def Db.clean (approval : Nat) (approvalEndAt : Int) (siae : Company) (p : CommonProlongation) : Bool :=
  1 ≤ p.duration && p.endAt ≤ db.maxEndAt approval p.startAt p.reason &&
    (p.reason ≠ .particularDifficulties || decide (siae.kind ∈ [CompanyKind.ai, CompanyKind.aci])) &&
    p.startAt = approvalEndAt &&
    (if p.reason.allowsReportFile then
      !p.requirePhoneInterview || (p.contactEmail ≠ "" && p.contactPhone ≠ "")
    else !p.requirePhoneInterview && p.contactEmail = "" && p.contactPhone = "")

/-- The instance of the form, with its initial values and the data. -/
def newProlongation (approval : Nat) (startAt : Int) (siae : Company) (data : FormData) : CommonProlongation where
  approvalId := approval
  startAt := startAt
  endAt := data.endAt
  reason := data.reason
  reasonExplanation := ""
  declaredBy := none
  declaredBySiae := some siae.pk
  prescriberOrganization := none
  createdBy := none
  updatedBy := none
  reportFile := none
  requirePhoneInterview := false
  contactEmail := ""
  contactPhone := ""

/-- The fields of `CreateProlongationRequestForm`: the contact is asked for an interview only. -/
def CommonProlongation.withRequestFields (p : CommonProlongation) (data : FormData) : CommonProlongation :=
  { p with
    prescriberOrganization := data.prescriberOrganization
    requirePhoneInterview := data.requirePhoneInterview
    contactEmail := if data.requirePhoneInterview then data.contactEmail else ""
    contactPhone := if data.requirePhoneInterview then data.contactPhone else "" }

/-- `get_prolongation_form` and `is_valid`. -/
def Db.validForm (approval : Nat) (startAt : Int) (siae : Company) (data : FormData) : Option Instance :=
  if db.reasonChoices approval siae |>.contains data.reason then
    if db.acceptsEndAt approval startAt data.reason data.endAt then
      let p := newProlongation approval startAt siae data
      if data.reason.needsPrescriberOpinion then
        let p := p.withRequestFields data
        match data.assignedTo with
        | some assignedTo =>
            if p.prescriberOrganization.isSome && db.clean approval startAt siae p then
              some (.request { p with status := .pending, assignedTo, processedAt := none, processedBy := none })
            else none
        | none => none
      else if db.clean approval startAt siae p then some (.prolongation { p with request := none, validatedBy := none })
      else none
    else none
  else none

/-- `created_by`, `declared_by` and `report_file`, set by the view. -/
def CommonProlongation.declared (p : CommonProlongation) (user : Nat) (siae : Company) (reportFile : Option Nat) :
    CommonProlongation :=
  { p with
    createdBy := some user
    declaredBy := some user
    -- `can_upload_prolongation_report`
    reportFile := if siae.kind = .ai then reportFile else none }

/-- `prolongation.save()`. -/
def Db.saveInstance (now : DateTime) (user : Nat) (siae : Company) (reportFile : Option Nat) :
    Instance → Option Db
  | .prolongation p => db.insertProlongation now
      { p with toCommonProlongation := p.toCommonProlongation.declared user siae reportFile }
  | .request r => db.insertRequest
      { r with toCommonProlongation := r.toCommonProlongation.declared user siae reportFile }

end Declaration

/-! ## Steps -/

/-- A view that has read a row, and not ended. -/
inductive Tab where
  /-- `declare_prolongation`, with the approval. -/
  | approval (pk : Nat) (approval : Approval)
  /-- The same view, when its form is valid. -/
  | form (siae : Company) (prolongation : Instance)
  /-- A view on a request, with the request. -/
  | request (pk : Nat) (request : ProlongationRequest)
  deriving DecidableEq

structure State where
  db : Db
  tabs : List Tab

inductive Action where
  | openApproval (approval : Nat)
  | validate (tab : Nat) (siae : Company) (data : FormData) (today : Int) (elsewhere : Elsewhere)
  | save (tab : Nat) (user : Nat) (reportFile : Option Nat) (now : DateTime)
  /-- `ProlongationRequestViewMixin.setup`, for a member of the organization. -/
  | openRequest (organization : Nat) (request : Nat)
  | grant (tab : Nat) (user : Nat) (now : DateTime)
  | deny (tab : Nat) (user : Nat) (information : DenyInformation) (now : DateTime)
  deriving DecidableEq

section Steps

variable (addMonths : Int → Int → Int)

/-- `ProlongationRequestGrantView.post`. A constraint that refuses the prolongation is reported. -/
def Db.grantView (db : Db) (now : DateTime) (pk : Nat) (request : ProlongationRequest) (user : Nat) : Db :=
  if request.status = .granted then db else (db.grant now pk request user).getD db

/-- `ProlongationRequestDenyView.done`. -/
def Db.denyView (db : Db) (now : DateTime) (pk : Nat) (request : ProlongationRequest) (user : Nat)
    (information : DenyInformation) : Db :=
  (db.deny now pk request user information).getD db

/-- One view reads, or writes and ends. A view that is refused ends without a write. -/
def State.step (s : State) : Action → Option State
  | .openApproval pk => (s.db.approvals.lookup pk).map fun approval =>
      { s with tabs := s.tabs ++ [.approval pk approval] }
  | .validate tab siae data today elsewhere =>
      match s.tabs[tab]? with
      | some (.approval pk approval) =>
          if elsewhere.hired && siae.isSubjectToIaeRules &&
              s.db.canBeProlonged addMonths pk approval.endAt today elsewhere then
            (s.db.validForm pk approval.endAt siae data).map fun p => { s with tabs := s.tabs.set tab (.form siae p) }
          else none
      | _ => none
  | .save tab user reportFile now =>
      match s.tabs[tab]? with
      | some (.form siae p) =>
          some { db := (s.db.saveInstance now user siae reportFile p).getD s.db, tabs := s.tabs.eraseIdx tab }
      | _ => none
  | .openRequest organization pk =>
      (s.db.requests.lookup pk).bind fun request =>
        if request.prescriberOrganization = some organization then
          some { s with tabs := s.tabs ++ [.request pk request] }
        else none
  | .grant tab user now =>
      match s.tabs[tab]? with
      | some (.request pk request) =>
          some { db := s.db.grantView now pk request user, tabs := s.tabs.eraseIdx tab }
      | _ => none
  | .deny tab user information now =>
      match s.tabs[tab]? with
      | some (.request pk request) =>
          some { db := s.db.denyView now pk request user information, tabs := s.tabs.eraseIdx tab }
      | _ => none

/-- A step of the views, or a suspension, which moves the end of an approval. -/
inductive Event where
  | view (action : Action)
  | suspend (approval : Nat) (days : Int)
  deriving DecidableEq

def State.stepSuspended (s : State) : Event → Option State
  | .view action => s.step addMonths action
  | .suspend pk days => (s.db.approvals.lookup pk).map fun approval =>
      { s with db := { s.db with
        approvals := s.db.approvals.insert pk { approval with endAt := approval.endAt + days } } }

end Steps

/-! ## Answers -/

/-- The constraints let the prolongation in, and the approval can be pushed back. -/
def Db.Accepts (db : Db) (p : Prolongation) : Prop :=
  Prolongation.constraints db.prolongations p = true ∧
    ∃ a, db.approvals.lookup p.approvalId = some a ∧ a.startAt < a.endAt + p.duration

instance (db : Db) (p : Prolongation) : Decidable (db.Accepts p) :=
  decidable_of_iff (Prolongation.constraints db.prolongations p = true ∧
    (db.approvals.lookup p.approvalId).any (fun a => a.startAt < a.endAt + p.duration) = true) (by
      simp only [Db.Accepts, Option.any_eq_true, decide_eq_true_eq])

/-- The constraints let the deny information in. -/
def Db.AcceptsDenyInformation (db : Db) (pk : Nat) (information : DenyInformation) : Prop :=
  information.proposedActions ≠ some [] ∧ ∀ other ∈ db.denyInformations.rows, other.request ≠ pk

instance (db : Db) (pk : Nat) (information : DenyInformation) : Decidable (db.AcceptsDenyInformation pk information) :=
  inferInstanceAs (Decidable (_ ∧ _))

/-- The prolongations that refer to a request. -/
def Db.prolongationCount (db : Db) (pk : Nat) : Nat := db.prolongations.rows.countP fun p => p.request = some pk

/-- The deny informations of a request. -/
def Db.denyCount (db : Db) (pk : Nat) : Nat := db.denyInformations.rows.countP fun i => i.request = pk

/-- The status of each request is the answer that the other tables hold. -/
def Db.Coherent (db : Db) : Prop :=
  ∀ r ∈ db.requests.entries,
    (r.2.status = .granted ↔ db.prolongationCount r.1 = 1) ∧
      (r.2.status = .denied ↔ db.denyCount r.1 = 1 ∧ db.prolongationCount r.1 = 0) ∧
      (r.2.status = .pending ↔ db.prolongationCount r.1 = 0 ∧ db.denyCount r.1 = 0)

/-- The answers that were given are still the same. -/
def Db.KeepsAnswers (db db' : Db) : Prop :=
  ∀ r ∈ db.requests.entries, r.2.status ≠ .pending → ∃ r' ∈ db'.requests.entries, r'.1 = r.1 ∧
    r'.2.status = r.2.status ∧ r'.2.processedBy = r.2.processedBy ∧ r'.2.processedAt = r.2.processedAt

/-- What refers to a request refers to one that exists. -/
structure Db.ForeignKeys (db : Db) : Prop where
  prolongation : ∀ p ∈ db.prolongations.rows, ∀ pk, p.request = some pk → pk ∈ db.requests
  denyInformation : ∀ i ∈ db.denyInformations.rows, i.request ∈ db.requests

/-! ## One answer -/

/-- The request that a view has read. -/
def Tab.request? : Tab → Option (Nat × ProlongationRequest)
  | .request pk r => some (pk, r)
  | _ => none

/-- A step does not answer a request that was answered the other way: it is not a grant of a denied request that the
constraints let in, nor a denial of a granted one. -/
def State.AnswersPending (s : State) : Action → Prop
  | .grant tab user now => ∀ t ∈ s.tabs[tab]?.bind Tab.request?, ∀ row ∈ s.db.requests.lookup t.1,
      row.status = .denied → ¬ s.db.Accepts (Prolongation.fromProlongationRequest t.1 (t.2.answered .granted user now))
  | .deny tab _ information _ => ∀ t ∈ s.tabs[tab]?.bind Tab.request?, ∀ row ∈ s.db.requests.lookup t.1,
      row.status = .granted → ¬ s.db.AcceptsDenyInformation t.1 information
  | _ => True

instance (s : State) : DecidablePred s.AnswersPending
  | .openApproval _ | .validate _ _ _ _ _ | .save _ _ _ _ | .openRequest _ _ => inferInstanceAs (Decidable True)
  | .grant _ _ _ => inferInstanceAs (Decidable (∀ t ∈ _, ∀ row ∈ _, _ → ¬ s.db.Accepts _))
  | .deny _ _ _ _ => inferInstanceAs (Decidable (∀ t ∈ _, ∀ row ∈ _, _ → ¬ s.db.AcceptsDenyInformation _ _))

/-- A step leaves the answers given before it as they are. -/
def State.KeepsAnswers (addMonths : Int → Int → Int) (s : State) (a : Action) : Prop :=
  ∀ s' ∈ s.step addMonths a, s.db.KeepsAnswers s'.db

/-! ## Limits -/

/-- The prolongations of an approval for one reason, in days. -/
def Db.durationFor (db : Db) (approval : Nat) (reason : Reason) : Int :=
  (((db.prolongationsOf approval).filter fun p => p.reason = reason).map (·.duration)).sum

/-- For each reason with a limit, the prolongations of an approval respect it. The rows are in the order of their
creation, the last one first: with all those before it, a prolongation respects the limit of its reason. -/
def Db.WithinLimits (db : Db) : Prop :=
  ∀ approval,
    (∀ reason, ∀ limit ∈ reason.maxCumulativeDuration, db.durationFor approval reason ≤ limit) ∧
      ∀ later p earlier, db.prolongationsOf approval = later ++ p :: earlier →
        ∀ limit ∈ p.reason.maxCumulativeDuration, ((p :: earlier).map (·.duration)).sum ≤ limit

/-- The prolongations of an approval do not overlap. -/
def Db.Disjoint (db : Db) : Prop :=
  ∀ approval, (db.prolongationsOf approval).Pairwise fun p q => Period.overlaps p.toPeriod q.toPeriod = false

/-- A prolongation that the step creates starts where the approval ended before it. -/
def State.StartsAtEnd (addMonths : Int → Int → Int) (s : State) (a : Action) : Prop :=
  ∀ s' ∈ s.step addMonths a, ∀ p ∈ s'.db.prolongations.entries, p ∉ s.db.prolongations.entries →
    ∃ approval, s.db.approvals.lookup p.2.approvalId = some approval ∧ p.2.startAt = approval.endAt

end Itou.Prolongations
