import Itou.Approvals.Lemmas.EndAt
import Itou.Approvals.Lemmas.Numbers
import Itou.Approvals.Lemmas.PeNotification
import Itou.Approvals.Lemmas.Suspensions
import Itou.Approvals.Perms
import Itou.Approvals.Statuses

/-!
# Theorems on approvals
-/

namespace Itou.Approvals

open Itou.Lib

/-! ## The end date -/

/-- Approvals that have neither suspension nor prolongation. -/
def Db.start (approvals₀ : Table Approval) : Db := ⟨approvals₀, ∅, ∅⟩

theorem Db.start_foreignKeys (approvals₀ : Table Approval) : (Db.start approvals₀).ForeignKeys :=
  ⟨fun s hs => absurd hs (List.not_mem_nil (a := s)), fun p hp => absurd hp (List.not_mem_nil (a := p))⟩

theorem Db.start_endAtLaw (approvals₀ : Table Approval) : EndAtLaw approvals₀ (Db.start approvals₀) := by
  intro id
  have hext : (Db.start approvals₀).extension id = 0 := rfl
  simp only [hext, add_zero]
  rfl

/-- Over any number of statements on suspensions and prolongations, the end dates follow the law exactly
when no statement moves a row with days to another approval: the `UPDATE` branch of both triggers takes the
old days back from `NEW.approval_id`. -/
theorem endAtLaw_iff_keepsApproval (approvals₀ : Table Approval) (statements : List (DateTime × Statement)) :
    AllStates Db.step (EndAtLaw approvals₀) (Db.start approvals₀) statements ↔
      AllSteps Db.step (fun db label => label.2.KeepsApproval db) (Db.start approvals₀) statements := by
  have hkeys : ∀ db label db', Db.ForeignKeys db → EndAtLaw approvals₀ db → db.step label = some db' →
      db'.ForeignKeys :=
    fun _ _ _ hfk _ h => hfk.step h
  have hlaw : ∀ db label db', Db.ForeignKeys db → EndAtLaw approvals₀ db → db.step label = some db' →
      (EndAtLaw approvals₀ db' ↔ label.2.KeepsApproval db) :=
    fun _ _ _ hfk hlaw h => endAtLaw_step hfk hlaw h
  exact allStates_iff_allSteps hkeys hlaw (Db.start_foreignKeys approvals₀) (Db.start_endAtLaw approvals₀)

def Approval.example (number : String) (user : Nat) : Approval :=
  { number, user, startAt := 100, endAt := 829, createdAt := ⟨100, 0⟩, updatedAt := ⟨100, 0⟩ }

/-- The approvals 1 and 2. -/
def twoApprovals : Table Approval :=
  AList.insert 1 (Approval.example "999990000001" 1) (AList.singleton 2 (Approval.example "999990000002" 2))

/-- A suspension of the approval 1, then the same row moved to the approval 2. -/
def movedSuspension : List (DateTime × Statement) :=
  [(⟨200, 0⟩, .suspension (.insert 1 ⟨⟨1, 150, 180⟩, .brokenContract⟩)),
   (⟨201, 0⟩, .suspension (.update 1 ⟨⟨2, 150, 180⟩, .brokenContract⟩))]

/-- The approval 1 keeps the 30 days of a suspension that it no longer has. -/
theorem endAtLaw_fails_movedSuspension :
    ¬ AllStates Db.step (EndAtLaw twoApprovals) (Db.start twoApprovals) movedSuspension := by
  intro h
  have hlast := h.2.2 1
  revert hlast
  decide

/-! ## The status -/

/-- Among the lists of the four statuses, exactly the one of `state` has the approval, under the constraint
`start_before_end`, when its suspensions are clear. -/
theorem listed_once_iff (addMonths : Int → Int → Int) (today : Int) (prefetched : Bool) (a : ListedApproval)
    (suspensionSet : List Suspension) (hordered : a.startAt < a.endAt) :
    (∀ status, ApprovalForm.lists addMonths today a suspensionSet status = true ↔
      status = a.state today prefetched suspensionSet) ↔ StatusClear today a.toApproval suspensionSet := by
  constructor
  · intro h
    have hvalid := lists_valid.symm.trans (h .valid)
    have hsuspended := lists_suspended.symm.trans (h .suspended)
    have hfuture := lists_future.symm.trans (h .future)
    rw [state_eq] at hvalid hsuspended hfuture
    constructor
    · intro hongoing
      by_cases hend : a.endAt < today
      · rw [if_pos hend] at hsuspended
        exact absurd (hsuspended.mp hongoing) (by decide)
      · rw [if_neg hend, if_pos hongoing] at hfuture
        exact ⟨not_lt.mp fun hstart => absurd (hfuture.mp hstart) (by decide), not_lt.mp hend⟩
    · intro hstart hend hstarted hending
      by_contra hnone
      rw [if_neg (not_lt.mpr hend), if_neg hnone, if_pos hstart] at hvalid
      exact (hvalid.mpr rfl).2 hstarted hending
  · rintro ⟨hongoing, haround⟩ status
    rw [state_eq]
    by_cases hend : a.endAt < today
    · have hnone : ¬ ∃ s ∈ suspensionSet, s.startAt ≤ today ∧ today ≤ s.endAt := fun h =>
        absurd (hongoing h).2 (not_le.mpr hend)
      rw [if_pos hend]
      cases status with
      | expired => simp only [lists_expired, hend]
      | valid => simp [lists_valid, not_le.mpr hend]
      | future => simp [lists_future, le_of_lt (hordered.trans hend)]
      | suspended => simp only [lists_suspended, hnone, reduceCtorEq]
    · rw [if_neg hend]
      by_cases hsuspended : ∃ s ∈ suspensionSet, s.startAt ≤ today ∧ today ≤ s.endAt
      · obtain ⟨s, hs, hstarted, hending⟩ := hsuspended
        have hstart := (hongoing ⟨s, hs, hstarted, hending⟩).1
        rw [if_pos ⟨s, hs, hstarted, hending⟩]
        cases status with
        | expired => simp only [lists_expired, hend, reduceCtorEq]
        | valid =>
            refine iff_of_false (fun h => ?_) (by decide)
            exact (lists_valid.mp h).2 ⟨s, hs, hstarted⟩ ⟨s, hs, hending⟩
        | future => simp [lists_future, hstart]
        | suspended => exact iff_of_true (lists_suspended.mpr ⟨s, hs, hstarted, hending⟩) rfl
      · rw [if_neg hsuspended]
        by_cases hstart : a.startAt ≤ today
        · rw [if_pos hstart]
          cases status with
          | expired => simp only [lists_expired, hend, reduceCtorEq]
          | valid =>
              refine iff_of_true (lists_valid.mpr ⟨⟨hstart, not_lt.mp hend⟩, fun hstarted hending => ?_⟩) rfl
              exact hsuspended (haround hstart (not_lt.mp hend) hstarted hending)
          | future => simp [lists_future, hstart]
          | suspended => simp only [lists_suspended, hsuspended, reduceCtorEq]
        · rw [if_neg hstart]
          cases status with
          | expired => simp only [lists_expired, hend, reduceCtorEq]
          | valid => simp [lists_valid, hstart]
          | future => simp [lists_future, not_le.mp hstart]
          | suspended => simp only [lists_suspended, hsuspended, reduceCtorEq]

/-- A long suspension, another one late in the period that it adds, and the deletion of the first. -/
def deletedSuspension : List (DateTime × Statement) :=
  [(⟨200, 0⟩, .suspension (.insert 1 ⟨⟨1, 150, 450⟩, .brokenContract⟩)),
   (⟨1000, 0⟩, .suspension (.insert 2 ⟨⟨1, 1000, 1100⟩, .sickness⟩)),
   (⟨1001, 0⟩, .suspension (.delete 1))]

/-- The approval is expired on the day 1050, and is in the list of those that are suspended. -/
theorem lists_expired_and_suspended :
    (run Db.step (Db.start (AList.singleton 1 (Approval.example "999990000001" 1))) deletedSuspension).map
        (fun db => (db.approvals.rows.map fun a => (a.startAt, a.endAt), db.suspensions.rows)) =
      some ([(100, 929)], [⟨⟨1, 1000, 1100⟩, .sickness⟩]) ∧
    ¬ ∀ status, ApprovalForm.lists (fun day _ => day) 1050
        ⟨{ Approval.example "999990000001" 1 with endAt := 929 }, 929⟩ [⟨⟨1, 1000, 1100⟩, .sickness⟩] status = true ↔
      status = ({ Approval.example "999990000001" 1 with endAt := 929 } : Approval).state 1050 true
        [⟨⟨1, 1000, 1100⟩, .sickness⟩] := by
  refine ⟨by decide +kernel, fun h => ?_⟩
  exact absurd ((h .suspended).mp (by decide)) (by decide)

/-- An approval in progress, and a suspension that is over. -/
theorem listed_once_example :
    (∀ status, ApprovalForm.lists (fun day _ => day) 300 ⟨Approval.example "999990000001" 1, 829⟩
        [⟨⟨1, 150, 180⟩, .sickness⟩] status = true ↔
      status = (Approval.example "999990000001" 1).state 300 false [⟨⟨1, 150, 180⟩, .sickness⟩]) ↔
    StatusClear 300 (Approval.example "999990000001" 1) [⟨⟨1, 150, 180⟩, .sickness⟩] :=
  listed_once_iff (fun day _ => day) 300 false ⟨Approval.example "999990000001" 1, 829⟩
    [⟨⟨1, 150, 180⟩, .sickness⟩] (by decide)

/-! ## Permissions -/

/-- A prescriber sees no other approvals than those of the job seekers assigned to them exactly when they are
not authorized, have no assignment, or have the holder of this approval among their assignments. -/
theorem prescriber_sees_assigned_iff (db : PermsDb) (request : Request) (approval : Approval) :
    (request.fromPrescriber = true →
      ∀ perms, canViewApprovalDetails db request approval = .ok (some perms) →
        request.fromAuthorizedPrescriber = true ∧
          approval.user ∈ db.assignedJobSeekerIds request.user request.currentOrganization false) ↔
      (request.fromPrescriber = true → request.fromAuthorizedPrescriber = true →
        db.assignedJobSeekerIds request.user request.currentOrganization false = [] ∨
          approval.user ∈ db.assignedJobSeekerIds request.user request.currentOrganization false) := by
  refine forall_congr' fun hprescriber => ?_
  rw [canViewApprovalDetails_of_fromPrescriber hprescriber]
  constructor
  · intro hsees hauthorized
    by_cases hassigned : db.assignedJobSeekerIds request.user request.currentOrganization false = []
    · exact Or.inl hassigned
    · exact Or.inr (hsees .read (by rw [if_pos ⟨hauthorized, hassigned⟩])).2
  · intro hassigned perms hperms
    simp only [Except.ok.injEq, Option.ite_none_right_eq_some] at hperms
    obtain ⟨⟨hauthorized, hne⟩, _⟩ := hperms
    exact ⟨hauthorized, (hassigned hauthorized).resolve_left hne⟩

/-- An authorized prescriber to whom the job seeker 1 is assigned. -/
def assignedPrescriber : PermsDb × Request :=
  ({ users := [⟨1, .jobSeeker⟩, ⟨2, .jobSeeker⟩, ⟨3, .professional⟩]
     jobApplications := []
     assignments := [{ jobSeeker := 1, professional := 3, prescriberOrganization := some 7, company := none }] },
   { user := ⟨3, .professional⟩
     ftWithoutFtOrganization := false
     currentOrganization := some (.prescriber ⟨7, true⟩) })

/-- The prescriber of the job seeker 1 sees the approval of the job seeker 2. -/
theorem prescriber_sees_unassigned :
    ¬ (assignedPrescriber.2.fromPrescriber = true →
      ∀ perms, canViewApprovalDetails assignedPrescriber.1 assignedPrescriber.2
          (Approval.example "999990000002" 2) = .ok (some perms) →
        assignedPrescriber.2.fromAuthorizedPrescriber = true ∧
          2 ∈ assignedPrescriber.1.assignedJobSeekerIds assignedPrescriber.2.user
            assignedPrescriber.2.currentOrganization false) := by
  intro h
  exact absurd (h rfl .read rfl).2 (by decide)

/-! ## Numbers -/

namespace Numbers

/-- **Numbers are not reused.** In every interleaving in which each lock on `Approval` finds a row, the numbers that a
transaction commits are greater than all the prefixed ones, and no number is there twice. -/
theorem numbers_fresh_of_locks (itouPrefix : List Char) (s : State) (labels : List (Nat × Op))
    (hstart : s.Start itouPrefix) (hlocks : AllSteps (State.step itouPrefix) State.LockFindsRow s labels) :
    AllSteps (State.step itouPrefix) (State.CommitsFresh itouPrefix) s labels ∧
      AllStates (State.step itouPrefix) State.Distinct s labels := by
  have hs : Inv itouPrefix s ∧ s.Distinct := ⟨hstart.inv, hstart.distinct⟩
  constructor
  · exact allSteps_of_allSteps (fun _ _ _ h hguard hstep => Inv.step h hguard hstep)
      (fun _ label _ h _ _ => h.1.commitsFresh label) hs hlocks
  · exact (allStates_of_allSteps (fun _ _ _ h hguard hstep => Inv.step h hguard hstep) hs hlocks).mono
      fun _ h => h.2

/-- `ASP_ITOU_PREFIX` in production. -/
def aspItouPrefix : List Char := ['9', '9', '9', '9', '9']

/-- One approval and one cancelled approval. -/
def oneOfEach : State where
  approvals := [⟨1, format aspItouPrefix 5⟩]
  cancelled := [⟨1, format aspItouPrefix 3⟩]
  nextApproval := 2
  nextCancelled := 2
  transactions := ∅

theorem oneOfEach_start : oneOfEach.Start aspItouPrefix where
  approvals := List.cons_ne_nil _ _
  cancelled := List.cons_ne_nil _ _
  pks := by decide
  nextApproval := by decide
  wellNumbered := by decide
  distinct := by decide
  transactions := rfl

/-- The `SELECT`s on `Approval`, then those on `CancelledApproval`. -/
def lastApproval (tid : Nat) : List (Nat × Op) :=
  [(tid, .query .selectApproval), (tid, .query .lockApproval), (tid, .query .readApproval)]

def lastCancelled (tid : Nat) : List (Nat × Op) :=
  [(tid, .query .selectCancelled), (tid, .query .lockCancelled), (tid, .query .readCancelled)]

/-- Two approvals are created one after the other, and the first one is cancelled in between. -/
def createdTwice : List (Nat × Op) :=
  [(2, .begin), (3, .begin)] ++ lastApproval 2 ++ [(3, .query .selectApproval)] ++ lastCancelled 2 ++
    [(2, .insert), (2, .commit), (3, .query .lockApproval), (3, .query .readApproval),
     (4, .cancel ⟨2, format aspItouPrefix 6⟩), (4, .delete)] ++ lastCancelled 3 ++
    [(4, .commit), (3, .insert), (3, .commit)]

theorem numbers_fresh_createdTwice :
    AllSteps (State.step aspItouPrefix) (State.CommitsFresh aspItouPrefix) oneOfEach createdTwice ∧
      AllStates (State.step aspItouPrefix) State.Distinct oneOfEach createdTwice :=
  numbers_fresh_of_locks _ _ _ oneOfEach_start (by decide)

/-- The only approval is cancelled. Then two transactions lock no row of `Approval`. -/
def createdWithoutLock : List (Nat × Op) :=
  [(1, .cancel ⟨1, format aspItouPrefix 5⟩), (1, .delete), (1, .commit), (2, .begin), (3, .begin)] ++
    lastApproval 2 ++ lastApproval 3 ++ lastCancelled 2 ++ [(2, .insert), (2, .commit),
     (4, .cancel ⟨2, format aspItouPrefix 6⟩), (4, .delete)] ++ lastCancelled 3 ++
    [(4, .commit), (3, .insert), (3, .commit)]

/-- The second transaction commits the number of the approval that was created and cancelled meanwhile. -/
theorem number_reused_createdWithoutLock :
    oneOfEach.Start aspItouPrefix ∧
      ¬ AllSteps (State.step aspItouPrefix) (State.CommitsFresh aspItouPrefix) oneOfEach createdWithoutLock ∧
      ¬ AllStates (State.step aspItouPrefix) State.Distinct oneOfEach createdWithoutLock :=
  ⟨oneOfEach_start, by decide, by decide⟩

end Numbers

/-! ## France Travail -/

namespace PeNotification

/-- From the creation of the approval on, where saves are fresh and nobody changes the dates that a run has in hand when
it records a success, France Travail has the current dates and no save raises. A save raises exactly when it changes the
dates of a row whose status is not that of the instance. -/
theorem franceTravail_current (localdate : Int → Int) :
    (∀ dates originSiaeKind user now actions,
      AllSteps (State.step localdate) State.Keeps (State.start dates originSiaeKind user now) actions →
        AllStates (State.step localdate) State.Law (State.start dates originSiaeKind user now) actions ∧
          AllSteps (State.step localdate) (fun s action => ¬ s.Raises action)
            (State.start dates originSiaeKind user now) actions) ∧
      ∀ (s : State) transaction dates, s.Raises (.save transaction dates) ↔
        ∃ approval ∈ s.instances transaction, dates ≠ s.approval.dates ∧
          approval.notification.status ≠ s.approval.notification.status := by
  constructor
  · intro dates originSiaeKind user now actions hkeeps
    have hstates := allStates_of_allSteps (fun _ _ _ hinv hkeeps h => inv_step hinv hkeeps h) inv_start hkeeps
    refine ⟨hstates.mono fun _ hinv => hinv.law, ?_⟩
    exact allSteps_of_allSteps (fun _ _ _ hinv hkeeps h => inv_step hinv hkeeps h)
      (fun _ _ _ _ hkeeps _ => not_raises_of_keeps hkeeps) inv_start hkeeps
  · intro s transaction dates
    rw [raises_iff]
    constructor
    · rintro ⟨_, _, heq, hraises⟩
      cases heq
      exact hraises
    · intro hraises
      exact ⟨transaction, dates, rfl, hraises⟩

/-- An approval of an association whose holder France Travail knows. -/
def newApproval : State :=
  .start ⟨0, 700⟩ .ai ⟨"Camille", "Martin", "190031398700953", some 0, some "ruLuawDxNzERAFwxw6Na4V8A8UCXg6vXM_WKkx5j8UQ"⟩ 10

/-- A transaction moves the end of the approval before a run takes it and tells France Travail. -/
def savedBeforehand : List Action :=
  [.edit newApproval.user true, .load 1, .save 1 ⟨0, 790⟩, .markReady, .readBatch 1,
    .notify 1 .apiException (.ok ()), .record 1]

theorem franceTravail_current_savedBeforehand :
    (∃ s, run (State.step id) newApproval savedBeforehand = some s ∧ s.approval.notification.status = .success ∧
      s.acknowledged = some ⟨0, 790⟩) ∧
    AllStates (State.step id) State.Law newApproval savedBeforehand := by
  have hkeeps : AllSteps (State.step id) State.Keeps newApproval savedBeforehand := by
    refine ⟨trivial, trivial, ?_, trivial, fun _ => rfl, trivial, ?_, trivial⟩
    · rintro approval ⟨⟩
      exact Or.inl rfl
    · rintro hand ⟨⟩ outcome ⟨⟩ -
      rfl
  exact ⟨⟨_, rfl, rfl, rfl⟩, ((franceTravail_current id).1 _ _ _ _ _ hkeeps).1⟩

/-- A suspension moves the end of the approval while a run has it in hand. -/
def suspendedMeanwhile : List Action :=
  [.edit newApproval.user true, .markReady, .readBatch 1, .updateDates ⟨0, 790⟩,
    .notify 1 .apiException (.ok ()), .record 1]

/-- The start of the approval is moved by a transaction that loaded it before the command. -/
def savedAfterMarkReady : List Action := [.edit newApproval.user true, .load 1, .markReady]

theorem franceTravail_outdated :
    (∃ s, run (State.step id) newApproval suspendedMeanwhile = some s ∧ ¬ s.Law) ∧
      ∃ s, run (State.step id) newApproval savedAfterMarkReady = some s ∧ s.Raises (.save 1 ⟨5, 705⟩) := by
  constructor
  · refine ⟨_, rfl, fun hlaw => ?_⟩
    have hdates := hlaw rfl fun run => ?_
    · exact absurd hdates (by decide)
    · by_cases heq : run = 1
      · rw [heq]
        rfl
      · simp [newApproval, State.start, State.setStatus, Function.update_of_ne heq]
  · refine ⟨_, rfl, raises_iff.mpr ⟨1, ⟨5, 705⟩, rfl, _, rfl, ?_, ?_⟩⟩
    · decide
    · decide

end PeNotification

/-! ## Days left and suspended -/

section Days

/-- `remainder` counts the days of the approval, from today on, that belong to no suspension. -/
theorem remainder_eq_card_usableDays (today : Int) {a : Approval} {suspensionSet : List Suspension}
    (ha : a.startAt ≤ a.endAt) (hfits : Fits a suspensionSet) :
    a.remainder today suspensionSet = ((a.usableDays today suspensionSet).card : Int) ∧
      0 ≤ a.remainder today suspensionSet ∧ a.remainderAsDate today suspensionSet ≤ a.endAt := by
  have hcard := hfits.remainder_eq_card today ha
  exact ⟨hcard, hcard ▸ Int.natCast_nonneg _, min_le_right _ _⟩

/-- Ten days, from the day 2 on, less the days 4 to 6 and the day 9. -/
theorem remainder_two_suspensions :
    (⟨"999992400001", 7, 0, 11, ⟨0, 0⟩, ⟨0, 0⟩⟩ : Approval).remainder 2
      [⟨⟨1, 4, 6⟩, .brokenContract⟩, ⟨⟨1, 9, 9⟩, .brokenContract⟩] = 6 := by
  have hfits : Fits ⟨"999992400001", 7, 0, 11, ⟨0, 0⟩, ⟨0, 0⟩⟩
      [⟨⟨1, 4, 6⟩, .brokenContract⟩, ⟨⟨1, 9, 9⟩, .brokenContract⟩] := ⟨by decide, by decide, by decide⟩
  rw [(remainder_eq_card_usableDays 2 (by decide) hfits).1]
  decide

/-- A new suspension always consumes rights: its approval is pushed back by one day less than the suspension has.
Its deletion gives the end of the approval back. -/
theorem not_keepsRights_of_suspends {addMonths : Int → Int → Int} {db db' : Db} {now : DateTime}
    {lastHiringStartAt : Option Int} {reasonExplanation : String} {k : Nat} {s : Suspension} {a : Approval}
    (h : db.Suspends addMonths now lastHiringStartAt reasonExplanation k s a db') :
    ¬ db.KeepsRights db' k s ∧ db.Restores db' k s ∧ ∀ a' ∈ db'.approvals.lookup s.approvalId,
      a'.remainder a'.startAt (db'.suspensionSet s.approvalId) =
        a.remainder a.startAt (db.suspensionSet s.approvalId) - 1 :=
  ⟨fun hkeeps => card_usableDays_of_suspends h hkeeps.usableDays, restores_of_suspends h,
    fun _ ha' => remainder_of_suspends h (Option.mem_def.mp ha')⟩

/-- One approval of thirty days, without suspensions. -/
def Db.thirtyDays : Db :=
  ⟨AList.singleton 1 ⟨"999992400001", 7, 0, 29, ⟨0, 0⟩, ⟨0, 0⟩⟩, ∅, ∅⟩

/-- The approval after a suspension of one day, which has not pushed it back. -/
def Db.suspendedOneDay : Db :=
  ⟨AList.singleton 1 ⟨"999992400001", 7, 0, 29, ⟨0, 0⟩, ⟨10, 0⟩⟩, AList.singleton 1 ⟨⟨1, 10, 10⟩, .suspendedContract⟩, ∅⟩

/-- A suspension of one day is accepted on that day. Thirty-six months are 1096 days here. -/
theorem suspends_oneDay : Db.thirtyDays.Suspends (fun day _ => day + 1096) ⟨10, 0⟩ (some 0) "" 1
    ⟨⟨1, 10, 10⟩, .suspendedContract⟩ ⟨"999992400001", 7, 0, 29, ⟨0, 0⟩, ⟨0, 0⟩⟩ Db.suspendedOneDay :=
  ⟨rfl, by decide, by decide, by decide, rfl⟩

/-- A suspension of one day leaves twenty-nine days of thirty. -/
theorem oneDay_consumed : Db.thirtyDays.usableDays 1 = some 30 ∧ Db.suspendedOneDay.usableDays 1 = some 29 ∧
    Db.thirtyDays.Suspends (fun day _ => day + 1096) ⟨10, 0⟩ (some 0) "" 1 ⟨⟨1, 10, 10⟩, .suspendedContract⟩
      ⟨"999992400001", 7, 0, 29, ⟨0, 0⟩, ⟨0, 0⟩⟩ Db.suspendedOneDay ∧
    ¬ Db.thirtyDays.KeepsRights Db.suspendedOneDay 1 ⟨⟨1, 10, 10⟩, .suspendedContract⟩ :=
  ⟨by decide, by decide, suspends_oneDay, fun h => absurd h.usableDays (by decide)⟩

theorem oneDay_not_keepsRights :
    ¬ Db.thirtyDays.KeepsRights Db.suspendedOneDay 1 ⟨⟨1, 10, 10⟩, .suspendedContract⟩ :=
  (not_keepsRights_of_suspends suspends_oneDay).1

/-- A hiring only shortens the suspension in progress, and its approval, exactly when it does not start more than one
day after the end of that suspension. -/
theorem unsuspend_onlyShortens_iff {db db' : Db} {now : DateTime} {id k : Nat} {s : Suspension} {hiringStartAt : Int}
    (hend : db.suspensionToEnd now.date id = some (k, s)) (htoday : now.date ≤ hiringStartAt)
    (h : db.unsuspend now id hiringStartAt = some db') :
    db.OnlyShortens db' k s hiringStartAt ↔ hiringStartAt ≤ s.endAt + 1 :=
  onlyShortens_unsuspend_iff hend htoday h

/-- An approval with a suspension from the day 5 to the day 12. -/
def Db.suspendedWeek : Db :=
  ⟨AList.singleton 1 ⟨"999992400001", 7, 0, 36, ⟨0, 0⟩, ⟨5, 0⟩⟩, AList.singleton 1 ⟨⟨1, 5, 12⟩, .brokenContract⟩, ∅⟩

/-- On the day 10, a hiring for the day 20 makes the suspension last until the day 19. -/
theorem unsuspend_lengthens : ∃ db', Db.suspendedWeek.suspensionToEnd 10 1 = some (1, ⟨⟨1, 5, 12⟩, .brokenContract⟩) ∧
    Db.suspendedWeek.unsuspend ⟨10, 0⟩ 1 20 = some db' ∧
    db'.suspensions.lookup 1 = some ⟨⟨1, 5, 19⟩, .brokenContract⟩ ∧
    (db'.approvals.lookup 1).map Approval.endAt = some 43 ∧
    ¬ Db.suspendedWeek.OnlyShortens db' 1 ⟨⟨1, 5, 12⟩, .brokenContract⟩ 20 := by
  refine ⟨_, by decide, rfl, by decide, by decide, fun h => ?_⟩
  obtain ⟨-, -, hle, -⟩ := h.suspension ⟨⟨1, 5, 19⟩, .brokenContract⟩ (by decide)
  exact absurd hle (by decide)

/-- A hiring for the day 11 ends it on the day 10. -/
theorem unsuspend_shortens : ∃ db', Db.suspendedWeek.unsuspend ⟨10, 0⟩ 1 11 = some db' ∧
    Db.suspendedWeek.OnlyShortens db' 1 ⟨⟨1, 5, 12⟩, .brokenContract⟩ 11 := by
  have hend : Db.suspendedWeek.suspensionToEnd (⟨10, 0⟩ : DateTime).date 1 =
      some (1, ⟨⟨1, 5, 12⟩, .brokenContract⟩) := by decide
  exact ⟨_, rfl, (unsuspend_onlyShortens_iff hend (by decide) rfl).mpr (by decide)⟩

end Days

end Itou.Approvals
