import Itou.Prolongations.Lemmas.Limits

/-!
# Prolongations, over whole runs

A request is answered once, and the limits on the prolongations hold.
-/

namespace Itou.Prolongations

open Itou.Lib Itou.Approvals

variable (addMonths : Int → Int → Int)

/-- The answers are coherent in each state and are kept by each step, exactly when no step answers a request that was
answered the other way. -/
theorem answeredOnce_iff (db : Db) (hcoherent : db.Coherent) (hkeys : db.ForeignKeys) (actions : List Action) :
    (AllStates (State.step addMonths) (fun s => s.db.Coherent) ⟨db, []⟩ actions ∧
      AllSteps (State.step addMonths) (State.KeepsAnswers addMonths) ⟨db, []⟩ actions) ↔
        AllSteps (State.step addMonths) State.AnswersPending ⟨db, []⟩ actions :=
  allStates_and_allSteps_iff (J := State.Sound)
    (fun _ _ _ hs _ hkeeps h => sound_step hs ((keepsAnswers_step h).mp hkeeps) h)
    (fun _ _ _ hs hcoherent h => coherent_step_iff hs hcoherent h) ⟨hkeys, fun _ h => nomatch h⟩ hcoherent

/-! ### A request answered twice -/

instance : DecidablePred Db.Coherent := fun db =>
  inferInstanceAs (Decidable (∀ r ∈ db.requests.entries, _))

instance : DecidableRel Db.KeepsAnswers := fun db db' =>
  inferInstanceAs (Decidable (∀ r ∈ db.requests.entries, r.2.status ≠ .pending → ∃ r' ∈ db'.requests.entries, _))

/-- An approval that ends soon, and a request to prolong it by a year. -/
def requested : Db where
  approvals := AList.singleton 1 ⟨"999990000001", 1, 0, 730, ⟨0, 0⟩, ⟨0, 0⟩⟩
  prolongations := ∅
  requests := AList.singleton 1
    { approvalId := 1, startAt := 730, endAt := 1095, reason := .rqth, reasonExplanation := "", declaredBy := some 2,
      declaredBySiae := some 1, prescriberOrganization := some 1, createdBy := some 2, updatedBy := none,
      reportFile := none, requirePhoneInterview := false, contactEmail := "", contactPhone := "", status := .pending,
      assignedTo := 3, processedAt := none, processedBy := none }
  denyInformations := ∅

theorem answeredOnce_grant :
    AllStates (State.step fun day _ => day) (fun s => s.db.Coherent) ⟨requested, []⟩
        [.openRequest 1 1, .grant 0 3 ⟨700, 0⟩] ∧
      AllSteps (State.step fun day _ => day) (State.KeepsAnswers fun day _ => day) ⟨requested, []⟩
        [.openRequest 1 1, .grant 0 3 ⟨700, 0⟩] :=
  (answeredOnce_iff (fun day _ => day) requested (by decide) ⟨fun _ h => (nomatch h), fun _ h => (nomatch h)⟩
    [.openRequest 1 1, .grant 0 3 ⟨700, 0⟩]).mpr (by decide)

/-- Two prescribers open the request. One grants it, the other denies it. -/
def answeredTwice : List Action :=
  [.openRequest 1 1, .openRequest 1 1, .grant 0 3 ⟨700, 0⟩, .deny 0 4 ⟨0, .iae, "", none, ""⟩ ⟨700, 1⟩]

theorem not_answeredOnce :
    ¬ (AllStates (State.step fun day _ => day) (fun s => s.db.Coherent) ⟨requested, []⟩ answeredTwice ∧
      AllSteps (State.step fun day _ => day) (State.KeepsAnswers fun day _ => day) ⟨requested, []⟩ answeredTwice) := by
  rintro ⟨h, -⟩
  exact absurd h (by decide)

/-- The database at first: approvals, and nothing else. -/
def Db.start (approvals : Table Approval) : Db := ⟨approvals, ∅, ∅, ∅⟩

theorem inv_start (approvals : Table Approval) : (⟨Db.start approvals, []⟩ : State).Inv where
  db := by
    refine ⟨fun p hp => (nomatch hp), fun approval => List.Pairwise.nil, fun approval later p earlier h => ?_,
      fun r hr => (nomatch hr)⟩
    cases later <;> cases h
  tabs tab h := nomatch h

/-- The limits hold in each state, and each prolongation starts where its approval ended. -/
theorem limits_hold (approvals : Table Approval) (actions : List Action) :
    AllStates (State.step addMonths) (fun s => s.db.WithinLimits ∧ s.db.Disjoint) ⟨Db.start approvals, []⟩ actions ∧
      AllSteps (State.step addMonths) (State.StartsAtEnd addMonths) ⟨Db.start approvals, []⟩ actions := by
  have hinv := inv_start approvals
  constructor
  · exact (allStates_of_step (fun _ _ _ hs h => inv_step hs h) hinv).mono
      fun s hs => ⟨withinLimits_of_inv hs.db, hs.db.disjoint⟩
  · exact allSteps_of_allSteps (G := fun _ _ => True) (fun _ _ _ hs _ h => inv_step hs h)
      (fun _ _ _ hs _ h => startsAtEnd_step hs h) hinv (allSteps_of_forall fun _ _ => trivial)

/-! ### Suspensions in between -/

/-- Suspensions may move the end of an approval between the views: the prolongations still do not overlap. -/
theorem disjoint_of_suspensions (approvals : Table Approval) (events : List Event) :
    AllStates (State.stepSuspended addMonths) (fun s => s.db.Disjoint) ⟨Db.start approvals, []⟩ events :=
  allStates_of_step (fun _ _ _ hs h => disjoint_stepSuspended hs h) (inv_start approvals).db.disjoint

/-- A company fills in the form on the approval 1. -/
def declared (reason : Reason) (endAt today : Int) : List Event :=
  [.view (.openApproval 1), .view (.validate 0 ⟨1, .ei⟩ ⟨reason, endAt, some 3, some 1, false, "", ""⟩ today
    ⟨true, true, false⟩)]

/-- Two years of training; the form of a request of thirty days, which is not sent yet when a suspension moves the end of the
approval by as many days; the form of a request of a year; then the first is sent and granted, and the second too. -/
def suspendedInBetween : List Event :=
  declared .completeTraining 1095 700 ++ [.view (.save 0 2 none ⟨700, 0⟩)] ++
    declared .completeTraining 1460 1000 ++ [.view (.save 0 2 none ⟨1000, 0⟩)] ++
    declared .rqth 1490 1400 ++ [.suspend 1 30, .view (.openApproval 1),
      .view (.validate 1 ⟨1, .ei⟩ ⟨.rqth, 1855, some 3, some 1, false, "", ""⟩ 1400 ⟨true, true, false⟩),
      .view (.save 0 2 none ⟨1400, 0⟩), .view (.openRequest 1 1), .view (.grant 1 3 ⟨1401, 0⟩),
      .view (.save 0 2 none ⟨1402, 0⟩), .view (.openRequest 1 2), .view (.grant 0 3 ⟨1403, 0⟩)]

/-- The other limits do not survive: a request has the start that it was filed with, and the total was checked before. -/
theorem not_withinLimits_suspendedInBetween :
    ∃ s, run (State.stepSuspended fun day months => day + 30 * months)
      ⟨Db.start (AList.singleton 1 ⟨"999990000001", 1, 0, 730, ⟨0, 0⟩, ⟨0, 0⟩⟩), []⟩ suspendedInBetween = some s ∧
        (s.db.prolongationsOf 1).map (fun p => (p.startAt, p.endAt, p.reason)) =
          [(1490, 1855, .rqth), (1460, 1490, .rqth), (1095, 1460, .completeTraining), (730, 1095, .completeTraining)] ∧
        ¬ s.db.WithinLimits := by
  have hrun : (run (State.stepSuspended fun day months => day + 30 * months)
      ⟨Db.start (AList.singleton 1 ⟨"999990000001", 1, 0, 730, ⟨0, 0⟩, ⟨0, 0⟩⟩), []⟩ suspendedInBetween).map
        (fun s => ((s.db.prolongationsOf 1).map fun p => (p.startAt, p.endAt, p.reason),
          ((s.db.prolongationsOf 1).map (·.duration)).sum)) =
      some ([(1490, 1855, .rqth), (1460, 1490, .rqth), (1095, 1460, .completeTraining), (730, 1095, .completeTraining)],
        1125) := by decide
  obtain ⟨s, hs, heq⟩ := Option.map_eq_some_iff.mp hrun
  obtain ⟨hlist, htotal⟩ := Prod.mk.inj heq
  refine ⟨s, hs, hlist, fun h => ?_⟩
  cases hp : s.db.prolongationsOf 1 with
  | nil =>
      rw [hp] at hlist
      cases hlist
  | cons p earlier =>
      rw [hp] at hlist htotal
      have hreason : p.reason = .rqth := congrArg (·.2.2) (List.cons.inj hlist).1
      have hle := (h 1).2 [] p earlier hp 1095 (by rw [hreason]; rfl)
      omega

/-! ### The model check -/

/-- What `CommonProlongation.clean` accepts, new or edited, respects both limits of its reason exactly when it is not
longer than a year where the cumulative limit is larger, and, for a request with the primary key of another
prolongation of the approval, when the total fits. -/
theorem cleanCommon_respectsRules_iff {db : Db} {isMember : Nat → Nat → Bool} {saved : Saved} {siae : Option Company}
    {p : CommonProlongation} (hordered : ∀ e ∈ db.prolongations.entries, e.2.startAt ≤ e.2.endAt)
    (h : db.cleanCommon isMember saved siae p = true) :
    db.RespectsRules saved p ↔ p.MeetsMaxDuration ∧ db.CollisionFits saved p :=
  respectsRules_iff hordered h

/-- A prolongation for a disability, from the end of the approval of `requested` on. -/
def prolongationUntil (endAt : Int) : CommonProlongation :=
  { approvalId := 1, startAt := 730, endAt, reason := .rqth, reasonExplanation := "", declaredBy := none,
    declaredBySiae := none, prescriberOrganization := some 1, createdBy := none, updatedBy := none,
    reportFile := none, requirePhoneInterview := false, contactEmail := "", contactPhone := "" }

/-- One of three years is accepted, where a request has twelve months at most. -/
theorem three_years_accepted :
    requested.cleanCommon (fun _ _ => true) (.prolongation none) none (prolongationUntil 1825) = true ∧
      (prolongationUntil 1825).duration = 1095 ∧ Reason.rqth.maxDuration = 365 ∧
      ¬ requested.RespectsRules (.prolongation none) (prolongationUntil 1825) :=
  ⟨by decide, by decide, by decide, fun h => absurd h.duration (by decide)⟩

theorem one_year_respectsRules : requested.RespectsRules (.prolongation none) (prolongationUntil 1095) := by
  have hclean : requested.cleanCommon (fun _ _ => true) (.prolongation none) none (prolongationUntil 1095) = true := by
    decide
  refine (cleanCommon_respectsRules_iff (by decide) hclean).mpr ⟨fun _ => by decide, ?_⟩
  rintro ⟨pk, hsaved, -⟩
  cases hsaved

end Itou.Prolongations
