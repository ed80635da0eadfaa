import Itou.JobApplications.Lemmas.Batches
import Itou.JobApplications.Lemmas.Cancellations

/-!
# Theorems on job applications
-/

namespace Itou.JobApplications

open Itou.Lib
open Itou.Approvals (Approval Db)

namespace JobApplication

/-! ## The constraints -/

/-- What holds of a row between two steps. -/
structure RowLaw (r : JobApplication) : Prop where
  processedAt : r.processedAt.isSome = true ↔ r.state ∈ processedStates
  archivedAt : r.state = .accepted ∨ r.state = .priorToHire → r.archivedAt = none
  archivedBy : r.archivedAt = none → r.archivedBy = none
  acceptedOnly : r.state ≠ .accepted → r.toAcceptedOnlyFields = {}
  coherent : r.Coherent
  noIntegrityError : ∀ now c k, r.attempt now c ≠ .error (.integrityError k)

theorem RowLaw.of_coherent {r : JobApplication} (hr : r.Coherent) : r.RowLaw := by
  obtain ⟨_, _, _, hprocessed, harchived, harchivedBy, _⟩ := (coherent_iff r).mp hr
  refine ⟨?_, fun hstate => ?_, fun hnone => ?_, fun hstate => hr.acceptedOnlyFields_eq hstate, hr,
    fun _ _ => (attempt_safe hr).1⟩
  · unfold processedCoherence at hprocessed
    split at hprocessed
    · rename_i hstate
      exact ⟨fun _ => hstate, fun _ => hprocessed⟩
    · rename_i hstate
      exact ⟨fun hsome => by simp_all, fun h => absurd h hstate⟩
  · unfold archivedStatus at harchived
    rcases hstate with hstate | hstate <;> simpa [hstate] using harchived
  · simpa [archivedByNoArchivedAt, hnone] using harchivedBy

/-- Along any run of calls and archivings from a new application, each row satisfies the constraints of its
table, and no call fails on one of them. -/
theorem rowLaw_of_isNew (r : JobApplication) (hnew : r.IsNew) (labels : List (DateTime × Action)) :
    AllStates step RowLaw r labels := by
  have hcoherent : AllStates step Coherent r labels :=
    allStates_of_step (fun _ _ _ hr h => step_coherent hr h) hnew.coherent
  exact hcoherent.mono fun _ hr => .of_coherent hr

/-- An application sent by the job seeker 1 to a GEIQ. -/
def toGeiq : JobApplication where
  pk := 1
  jobSeeker := ⟨1, .jobSeeker⟩
  sender := some ⟨1, .jobSeeker⟩
  senderKind := .jobSeeker
  senderCompany := none
  senderPrescriberOrganization := none
  toCompany := ⟨10, .geiq⟩
  createdAt := ⟨0, 0⟩
  updatedAt := ⟨0, 0⟩

theorem toGeiq_isNew : toGeiq.IsNew := ⟨rfl, rfl, rfl, rfl, rfl, rfl, by decide⟩

/-- A refusal, a manual archiving, then an external transfer. -/
theorem rowLaw_toGeiq :
    AllStates step RowLaw toGeiq
      [(⟨1, 0⟩, .call (.refuse (some .noPosition) true "Bonjour" "")), (⟨2, 0⟩, .archive 5),
        (⟨3, 0⟩, .call .externalTransfer)] :=
  rowLaw_of_isNew toGeiq toGeiq_isNew _

/-! ## Transfers -/

/-- The condition on the contract that `JobApplication.clean` checks. -/
def GeiqOnly (r : JobApplication) : Prop := r.toCompany.kind ≠ .geiq → r.toContractFields = {}

instance : DecidablePred GeiqOnly := fun _ => inferInstanceAs (Decidable (_ → _))

/-- The transfer that the action asks for, if it is one. -/
def transferRequested : Action → Option TransferRequest
  | .call (.transfer request) => some request
  | _ => none

/-- After a transfer, no answer and no refusal of the former company remains. -/
def NothingKept (r : JobApplication) (label : DateTime × Action) : Prop :=
  (transferRequested label.2).isSome → ∀ r' ∈ r.step label,
    r'.answer = "" ∧ r'.answerToPrescriber = "" ∧ r'.refusalReason = none

/-- A transfer goes to a GEIQ or finds no contract, and it finds no refusal reason. -/
def LikeNew (r : JobApplication) (label : DateTime × Action) : Prop :=
  ∀ request ∈ transferRequested label.2,
    (request.targetCompany.kind = .geiq ∨ r.toContractFields = {}) ∧ r.refusalReason = none

instance (r : JobApplication) : DecidablePred r.NothingKept :=
  fun _ => inferInstanceAs (Decidable (_ → ∀ _ ∈ step _ _, _ ∧ _))

instance (r : JobApplication) : DecidablePred r.LikeNew :=
  fun _ => inferInstanceAs (Decidable (∀ _ ∈ transferRequested _, _ ∧ _))

theorem geiqOnly_step {r r' : JobApplication} {label : DateTime × Action} (hr : r.Coherent)
    (hgeiq : r.GeiqOnly) (h : r.step label = some r') :
    r'.GeiqOnly ↔ ∀ request ∈ transferRequested label.2,
      request.targetCompany.kind = .geiq ∨ r.toContractFields = {} := by
  have hkeeps : KeepsContract r r' → (r'.GeiqOnly ↔ ∀ request ∈ (none : Option TransferRequest),
      request.targetCompany.kind = .geiq ∨ r.toContractFields = {}) := by
    rintro ⟨hcompany, hcontract⟩
    refine iff_of_true (fun hkind => ?_) (by simp)
    rw [hcompany] at hkind
    rcases hcontract with hsame | hkind'
    · exact hsame.trans (hgeiq hkind)
    · exact absurd hkind' hkind
  obtain ⟨now, action⟩ := label
  cases action with
  | call c =>
      have hc : r.attempt now c = .ok r' := toOption_eq_some.mp h
      cases c with
      | transfer request =>
          obtain ⟨hcompany, _, _, hcontract, _⟩ := attempt_transfer hc
          simp only [GeiqOnly, hcompany, hcontract, transferRequested, Option.mem_def, Option.some.injEq,
            forall_eq', ← Decidable.or_iff_not_imp_left]
      | _ => exact hkeeps (attempt_keepsContract hr (by rintro _ ⟨⟩) hc)
  | _ => exact hkeeps (step_archive_keepsContract (by rintro _ ⟨⟩) h)

theorem nothingKept_step {r r' : JobApplication} {label : DateTime × Action} (h : r.step label = some r') :
    r.NothingKept label ↔ ∀ request ∈ transferRequested label.2, r.refusalReason = none := by
  obtain ⟨now, action⟩ := label
  cases action with
  | call c =>
      cases c with
      | transfer request =>
          obtain ⟨_, hanswer, htoPrescriber, _, hreason⟩ := attempt_transfer (toOption_eq_some.mp h)
          simp [NothingKept, transferRequested, h, hanswer, htoPrescriber, hreason]
      | _ => simp [NothingKept, transferRequested]
  | _ => simp [NothingKept, transferRequested]

/-- Along a run from a new application, the contract stays with GEIQs and a transferred application is like new
exactly when no transfer takes a contract away from a GEIQ nor a refusal reason along. -/
theorem transfer_like_new_iff (r : JobApplication) (hnew : r.IsNew) (labels : List (DateTime × Action)) :
    (AllStates step GeiqOnly r labels ∧ AllSteps step NothingKept r labels) ↔
      AllSteps step LikeNew r labels := by
  have hsplit : ∀ r label r', True → step r label = some r' → (r.LikeNew label ↔
      (∀ request ∈ transferRequested label.2,
        request.targetCompany.kind = .geiq ∨ r.toContractFields = {}) ∧ r.NothingKept label) := by
    intro r label r' _ h
    rw [nothingKept_step h]
    exact forall₂_and
  rw [allSteps_congr (J := fun _ => True) (fun _ _ _ _ _ => trivial) hsplit trivial, allSteps_and]
  refine and_congr_left' ?_
  exact allStates_iff_allSteps (fun _ _ _ hr _ h => step_coherent hr h)
    (fun _ _ _ hr hgeiq h => geiqOnly_step hr hgeiq h) hnew.coherent fun _ => hnew.contract

/-- An employer of the GEIQ 10, on a day when no approval exists. -/
def geiqContext : AcceptContext where
  user := ⟨5, .professional⟩
  now := ⟨10, 0⟩
  db := ⟨∅, ∅, ∅⟩
  profile := ⟨"", "", none⟩
  lastConsideredValid := none
  diagnosesForSiae := []
  validGeiqDiagnosis := none
  hasValidDiagnosis := false
  nextNumber := "999990000001"
  waitingPeriodEnd := (· + 730)

/-- An apprenticeship of 35 hours a week. -/
def geiqForm : AcceptForm where
  hiringStartAt := 12
  hiringEndAt := none
  answer := "Bienvenue"
  contract := { contractType := some .apprenticeship, nbHoursPerWeek := some 35 }
  qualificationType := some .ccn
  qualificationLevel := some .level3

/-- A transfer from the GEIQ 10 to the EI 20. -/
def toEi : TransferRequest := ⟨⟨5, .professional⟩, ⟨20, .ei⟩, [10, 20]⟩

/-- The application is studied, then transferred. -/
theorem transfer_like_new_toEi :
    AllStates step GeiqOnly toGeiq [(⟨1, 0⟩, .call .process), (⟨2, 0⟩, .call (.transfer toEi))] ∧
      AllSteps step NothingKept toGeiq [(⟨1, 0⟩, .call .process), (⟨2, 0⟩, .call (.transfer toEi))] :=
  (transfer_like_new_iff toGeiq toGeiq_isNew _).mpr (by decide)

/-- The hiring in the GEIQ is accepted, then cancelled, and the application is transferred to the EI: the
contract goes with it. -/
theorem transfer_keeps_contract :
    ¬ (AllStates step GeiqOnly toGeiq
        [(⟨10, 0⟩, .call (.accept geiqContext (some (geiqForm, (· + 180))))),
          (⟨11, 0⟩, .call (.cancel false)), (⟨12, 0⟩, .call (.transfer toEi))] ∧
      AllSteps step NothingKept toGeiq
        [(⟨10, 0⟩, .call (.accept geiqContext (some (geiqForm, (· + 180))))),
          (⟨11, 0⟩, .call (.cancel false)), (⟨12, 0⟩, .call (.transfer toEi))]) := by
  decide

/-! ## The hiring date -/

/-- After an acceptance that used an approval, and after the triggers, the contract starts inside the approval
exactly when the suspension that was ended did not go on to the last day of the approval. -/
theorem accept_starts_in_approval_iff {ctx : AcceptContext} {r r' : JobApplication} {hiringStartAt : Int}
    {db : Db} {id : Nat} (hr : r.Coherent)
    (hiae : r.toCompany.isSubjectToIaeRules = true) (hstart : r.hiringStartAt = some hiringStartAt)
    (htoday : ctx.today ≤ hiringStartAt) (h : r.accept ctx = .ok (r', db)) (hid : r'.approval = some id) :
    StartsInApproval db id hiringStartAt ↔ ctx.SuspensionEndsBefore r.jobSeeker hiringStartAt := by
  obtain ⟨hsource, r₁, hbody, rfl⟩ := perform_ok h
  have haccepted : r.state ≠ .accepted := fun heq => absurd (heq ▸ hsource) (by decide)
  have hfields := (beforeTransition_toAcceptedOnlyFields ctx.now .accept r).trans
    (hr.acceptedOnlyFields_eq haccepted)
  change r₁.approval = some id at hid
  obtain ⟨r₂, r₃, db₁, hseeker, hissued, hdeliver⟩ := acceptBody_issued
    (by rw [beforeTransition_toCompany, hiae]) htoday
    (by rw [beforeTransition_hiringStartAt, hstart]) (by rw [hfields]) (by simp [hid]) hbody
  have hseeker' : r₂.jobSeeker = r.jobSeeker :=
    hseeker.trans (beforeTransition_frame ctx.now .accept r).2.2.1
  rw [← hseeker', ← deliverApproval_iff hissued hdeliver]
  have hused : r₁.approval = some (ctx.approvalUsed r₂.jobSeeker hiringStartAt).1 :=
    (deliverApproval_approval hdeliver).trans hissued.approval
  rw [Option.some.inj (hid.symm.trans hused)]

/-- An application to the EI 20, for a hiring on the given day. -/
def toSiae (hiringStartAt : Int) : JobApplication where
  pk := 2
  jobSeeker := ⟨1, .jobSeeker⟩
  sender := some ⟨1, .jobSeeker⟩
  senderKind := .jobSeeker
  senderCompany := none
  senderPrescriberOrganization := none
  toCompany := ⟨20, .ei⟩
  createdAt := ⟨0, 0⟩
  updatedAt := ⟨0, 0⟩
  hiringStartAt := some hiringStartAt

/-- An approval of two years from day 0 on, with a suspension that is inserted on its first day. -/
def suspendedDb (startAt endAt : Int) : Db :=
  let approval : Approval :=
    { number := "999990000001", user := 1, startAt := 0, endAt := 729, createdAt := ⟨0, 0⟩, updatedAt := ⟨0, 0⟩ }
  ((⟨AList.singleton 1 approval, ∅, ∅⟩ : Db).exec ⟨startAt, 0⟩
    (.suspension (.insert 1 ⟨⟨1, startAt, endAt⟩, .brokenContract⟩))).getD ⟨∅, ∅, ∅⟩

/-- An employer of the EI 20 on the given day. -/
def siaeContext (today : Int) (db : Db) : AcceptContext :=
  { geiqContext with now := ⟨today, 0⟩, db, lastConsideredValid := some 3 }

/-- A suspension in the middle of the approval. -/
theorem accept_starts_in_approval :
    ∃ r' db, (toSiae 715).accept (siaeContext 710 (suspendedDb 700 720)) = .ok (r', db) ∧
      StartsInApproval db 1 715 :=
  ⟨_, _, rfl, (@accept_starts_in_approval_iff (siaeContext 710 (suspendedDb 700 720)) (toSiae 715) _ 715 _ 1
    (by decide) rfl rfl (by decide) rfl rfl).mpr (by decide)⟩

/-- A suspension that starts on the last day of the approval: the hiring date is checked against an end date
that the suspension has pushed to day 759, and the end of the suspension brings it back to day 749. -/
theorem accept_starts_after_approval :
    ∃ r' db, (toSiae 750).accept (siaeContext 740 (suspendedDb 729 759)) = .ok (r', db) ∧
      r'.approval = some 1 ∧ ¬ StartsInApproval db 1 750 :=
  ⟨_, _, rfl, rfl, by decide⟩

end JobApplication

/-! ## The contracts -/

namespace Contracts

/-- Over any run of acceptances, new hiring dates, cancellations and waits, the contracts stay inside their approvals
and the dates of accepted applications only are edited exactly when each step meets the condition. -/
theorem inside_iff_keepsContracts (s : Contracts) (hw : s.WellFormed) (hs : s.Inside) (actions : List Action) :
    AllStates step Inside s actions ∧ AllSteps step EditsAccepted s actions ↔
      AllSteps step KeepsContracts s actions :=
  allStates_and_allSteps_iff (fun _ _ _ hw hs _ h => step_wellFormed hw hs h)
    (fun _ _ _ hw hs h => step_inside_iff hw hs h) hw hs

/-- Two applications of one job seeker, on day 0. -/
def twoApplications : Contracts where
  now := ⟨0, 0⟩
  db := ⟨∅, ∅, ∅⟩
  jobApplications :=
    [{ JobApplication.toSiae 0 with pk := 1, hiringStartAt := none },
      { JobApplication.toSiae 0 with pk := 2, hiringStartAt := none, toCompany := ⟨21, .aci⟩ }]

theorem twoApplications_wellFormed : twoApplications.WellFormed where
  coherent := by decide
  foreignKeys := ⟨by decide, by decide⟩
  distinct := by decide

/-- The hiring of a job seeker whose number is known. -/
def hire (pk : Nat) (hiringStartAt : Int) : Action :=
  .accept pk { JobApplication.siaeContext 0 ⟨∅, ∅, ∅⟩ with profile := ⟨"269054958815780", "", none⟩ }
    (.employer { JobApplication.geiqForm with hiringStartAt } (· + 180))

def edit (pk : Nat) (hiringStartAt : Int) : Action := .editContractStartDate pk ⟨[20, 21]⟩ ⟨hiringStartAt, none⟩

/-- The only contract of the approval is postponed; a second one starts later, then the first is cancelled. -/
theorem inside_twoApplications :
    AllStates step Inside twoApplications [hire 1 10, edit 1 20, hire 2 30, .cancel 1 false] ∧
      AllSteps step EditsAccepted twoApplications [hire 1 10, edit 1 20, hire 2 30, .cancel 1 false] :=
  (inside_iff_keepsContracts twoApplications twoApplications_wellFormed (by decide) _).mpr (by decide)

/-- The second contract is postponed and takes the approval with it, away from the first; and the dates of an
application that is new are edited. -/
theorem left_outside_twoApplications :
    ¬ AllStates step Inside twoApplications [hire 1 10, hire 2 20, edit 2 30] ∧
      ¬ AllSteps step EditsAccepted twoApplications [edit 1 30] := by
  decide

end Contracts

/-! ## Cancellations -/

namespace Hires

/-- The cancellation of an accepted application that can be cancelled removes exactly what belongs to the hire, unless
the database refuses to delete its approval. A request that does not do so changes nothing. -/
theorem cancelRequest_removes (s : Hires) (hvalid : s.Valid) (pk : Nat) :
    (∀ r ∈ s.jobApplications, r.pk = pk → r.state = .accepted → s.canBeCancelled r = true → s.Deletable r →
        s.Cancelled (s.cancelRequest pk) r) ∧
      ((¬ ∃ r ∈ s.jobApplications, r.pk = pk ∧ r.state = .accepted ∧ s.canBeCancelled r = true ∧ s.Deletable r) →
        s.cancelRequest pk = s) := by
  constructor
  · rintro r hr rfl hstate hcan hdeletable
    obtain ⟨u, hu, hcancelled⟩ := (cancel_spec hvalid hr hstate hcan).1 hdeletable
    rw [cancelRequest, hu]
    exact hcancelled
  · intro hnone
    cases hcancel : s.cancel pk with
    | error e => rw [cancelRequest, hcancel]
    | ok u =>
        obtain ⟨r, hr, rfl, hstate, hcan⟩ := cancel_eq_ok hcancel
        have hnot : ¬ s.Deletable r := fun hdeletable => hnone ⟨r, hr, rfl, hstate, hcan, hdeletable⟩
        obtain ⟨e, he⟩ := (cancel_spec hvalid hr hstate hcan).2 hnot
        rw [hcancel] at he
        cases he

/-- An accepted application to the EI 20, with the approval 1. -/
def hiredApplication : JobApplication :=
  { JobApplication.toSiae 0 with state := .accepted, processedAt := some ⟨0, 0⟩, approval := some 1 }

/-- A hire of the EI 20 with the approval 1, which is suspended for ten days, and an employee record that is not
sent. -/
def hired : Hires where
  now := ⟨60, 0⟩
  db := JobApplication.suspendedDb 30 40
  jobApplications := [hiredApplication]
  cancelledApprovals := []
  employeeRecords := AList.singleton 5 ⟨2, "999990000001", .new, []⟩
  notifications := .empty

theorem hired_valid : hired.Valid where
  wellFormed := ⟨by decide, ⟨by decide, by decide⟩, by decide⟩
  approvals := by decide
  startBeforeEnd := by decide
  ordered := ⟨by decide, by decide⟩

/-- The hire is cancelled. -/
theorem cancelRequest_hired : hired.Cancelled (hired.cancelRequest 2) hiredApplication := by
  refine (cancelRequest_removes hired hired_valid 2).1 _ List.mem_cons_self rfl rfl (by decide) ?_
  intro id hid _ a ha
  obtain rfl : 1 = id := Option.some.inj hid
  obtain rfl := Option.some.inj ha
  exact ⟨List.not_mem_nil, by decide⟩

/-- The hire, when its approval has the number of a cancelled approval. -/
def renumbered : Hires := { hired with cancelledApprovals := [⟨"999990000001", 0, 10⟩] }

/-- The hire can be cancelled and no other has its approval, but the approval stays. -/
theorem cancelRequest_keeps_approval :
    renumbered.Valid ∧ ∃ r ∈ renumbered.jobApplications, r.pk = 2 ∧ r.state = .accepted ∧
      renumbered.canBeCancelled r = true ∧ r.approval = some 1 ∧ ¬ renumbered.UsedElsewhere r 1 ∧
      1 ∈ (renumbered.cancelRequest 2).db.approvals := by
  refine ⟨⟨hired_valid.wellFormed, hired_valid.approvals, hired_valid.startBeforeEnd, hired_valid.ordered⟩, _,
    List.mem_singleton.mpr rfl, rfl, rfl, by decide, rfl, ?_, by decide⟩
  rintro ⟨other, hother, hpk, -⟩
  obtain rfl := List.mem_singleton.mp hother
  exact hpk rfl

end Hires

/-! ## Batches -/

namespace Session

open Sessions (State Label entriesOf)

/-- What concurrent transactions leave: on each application, a sequence of steps. -/
structure Serialized {ι : Type} [DecidableEq ι] (sessions : ι → Session) (rows : Nat → Option JobApplication)
    (s : State Nat JobApplication ι (DateTime × Action)) : Prop where
  /-- Each application is where the entries of its history lead one after the other. An entry is a step of the row, as
  it is then, and the row is one that the query of the session selects. -/
  rows : ∀ pk, (rows pk).bind (run ((system sessions).replay JobApplication.step pk) · (entriesOf pk s.history)) =
    s.rows pk
  /-- A request reports what its history has, once for an application. -/
  reported : ∀ i, (s.phase i).done = (s.history.filter (·.1 = i)).map Prod.snd
  once : ∀ i, ((s.phase i).done.map Prod.fst).Nodup
  law : ∀ pk r, s.rows pk = some r → r.RowLaw
  noFailure : ∀ i, s.phase i ≠ .failed

/-- In every interleaving of batch requests and of the two commands, on any applications, each application goes through
steps of its workflow one after the other, on rows that the request still receives; each report is right, and none
fails. -/
theorem serialized_of_run {ι : Type} [DecidableEq ι] (sessions : ι → Session) (rows : Nat → Option JobApplication)
    (hrows : ∀ pk r, rows pk = some r → r.Coherent) (labels : List (Label Nat ι DateTime))
    (s : State Nat JobApplication ι (DateTime × Action))
    (hrun : run (system sessions).step (State.init rows) labels = some s) : Serialized sessions rows s := by
  have h : (system sessions).Inv JobApplication.step JobApplication.Coherent rows s :=
    (Sessions.inv_init hrows).run (lawful sessions) hrun
  exact ⟨h.replays, h.done, h.once, fun pk r hr => .of_coherent (h.rows pk r hr), h.succeeds⟩

/-- A user of the GEIQ 10 transfers the application 1 to the GEIQ 11, a colleague postpones it, and the command would
refuse it. -/
def transferAndPostpone : Fin 3 → Session
  | 0 => .batch 10 [1] (.transfer ⟨⟨5, .professional⟩, ⟨11, .geiq⟩, [10, 11]⟩)
  | 1 => .batch 10 [1] (.postpone "Bonjour")
  | 2 => .rejectJobApplications 1 ⟨90, 0⟩ "Bonjour"

def geiqRows : Nat → Option JobApplication := fun pk => if pk = 1 then some JobApplication.toGeiq else none

theorem geiqRows_coherent (pk : Nat) (r : JobApplication) (hr : geiqRows pk = some r) : r.Coherent := by
  simp only [geiqRows, Option.ite_none_right_eq_some, Option.some.injEq] at hr
  obtain ⟨_, rfl⟩ := hr
  exact JobApplication.toGeiq_isNew.coherent

/-- The colleague locks the application once the transfer is committed: it is no longer of the GEIQ 10. -/
def transferFirst : List (Label Nat (Fin 3) DateTime) :=
  [.lock 0 1, .fetched 0, .work 0 ⟨80, 0⟩, .commit 0, .lock 1 1, .fetched 1, .commit 1, .lock 2 1, .fetched 2,
    .commit 2]

/-- The transfer is the only change: it is also too recent for the command. -/
theorem serialized_transferAndPostpone :
    (run (system transferAndPostpone).step (State.init geiqRows) transferFirst).map
        (fun s => s.history.map fun e => (e.1, e.2.1)) = some [(0, 1)] ∧
      ∀ s ∈ run (system transferAndPostpone).step (State.init geiqRows) transferFirst,
        Serialized transferAndPostpone geiqRows s :=
  ⟨by decide, fun s hs => serialized_of_run transferAndPostpone geiqRows geiqRows_coherent transferFirst s hs⟩

end Session

end Itou.JobApplications
