import Itou.Lib.Differs
import Itou.Lib.Runs
import Mathlib.Algebra.Order.Ring.Int

/-!
# `sync_orientation_statuses`

The orientations of DORA and their local rows. A run reads the statuses that changed since its watermark, and writes them
later: changes, local creations and other runs may come between. An instant is a number of microseconds.

The logs come from runs of the command, each with any statuses, and from transitions that are taken here. The workflow
engine checks and logs the latter, and the command writes the logs of the former.
-/

namespace Itou.Insertion.Orientations

open Itou.Lib

/-- `OrientationStatus`. -/
inductive Status where
  | pending
  | accepted
  | expired
  | rejected
  deriving DecidableEq

/-- `OrientationTransition`. -/
inductive Transition where
  | accept
  | reject
  | expire
  deriving DecidableEq

/-- An orientation of DORA, as the API gives it. -/
structure Item where
  status : Status
  processingDate : Option Int
  updatedAt : Int
  deriving DecidableEq

/-- The columns `DoraStatus._fields` of a local row. -/
structure Orientation where
  status : Status
  processingDate : Option Int
  doraStatusUpdatedAt : Option Int
  updatedAt : Int
  deriving DecidableEq

/-- `OrientationTransitionLog`. -/
structure TransitionLog where
  orientation : String
  transition : Transition
  fromState : Status
  toState : Status
  timestamp : Int
  deriving DecidableEq

/-- `MIN_EMPLOIS_DORA_TIMEDELTA`. -/
def minEmploisDoraTimedelta : Int := 3000000

/-- `DoraStatus.from_api_item`. -/
def Item.doraStatus (item : Item) : Orientation where
  status := item.status
  processingDate := item.processingDate
  doraStatusUpdatedAt := some item.updatedAt
  updatedAt := item.updatedAt

/-- The local row is more recent than what DORA says, by more than the margin. -/
def Orientation.Ahead (row : Orientation) (item : Item) : Prop :=
  row.updatedAt - item.updatedAt > minEmploisDoraTimedelta

instance (row : Orientation) (item : Item) : Decidable (row.Ahead item) :=
  inferInstanceAs (Decidable (_ > _))

/-- The row after the body of the loop. -/
def Orientation.synced (row : Orientation) (item : Item) : Orientation :=
  if item.doraStatus = row then row else if row.Ahead item then row else item.doraStatus

/-- The transition to a status. -/
def Status.transition : Status → Option Transition
  | .accepted => some .accept
  | .rejected => some .reject
  | .expired => some .expire
  | .pending => none

/-- The log that the body of the loop writes. -/
def Orientation.log (uid : String) (row : Orientation) (item : Item) : Option TransitionLog :=
  if item.doraStatus = row ∨ row.Ahead item then none
  else item.status.transition.map fun transition => ⟨uid, transition, row.status, item.status, item.updatedAt⟩

/-- A run under way: the statuses it has read. `latest` is kept for the statements: no orientation of DORA has changed
since. -/
structure Fetch where
  statuses : AList fun _ : String => Item
  latest : Bool

/-- The two sides. `late` and `overtaken` are kept for the statements: the orientations whose last change came with an
update time that a run had already gone past, and those that a run has written over with an older status. -/
structure State where
  dora : AList fun _ : String => Item
  orientations : AList fun _ : String => Orientation
  logs : List TransitionLog
  runs : List Fetch
  late : List String
  overtaken : List String

namespace State

def empty : State := ⟨∅, ∅, [], [], [], []⟩

/-- `Max("dora_status_updated_at")`. -/
def watermark (s : State) : Option Int :=
  (s.orientations.entries.filterMap fun e => e.2.doraStatusUpdatedAt).max?

/-- What the API answers: the orientations with an update time that is not before `updated_after`. -/
def orientationStatuses (s : State) (updatedAfter : Option Int) : AList fun _ : String => Item where
  entries := s.dora.entries.filter fun e => updatedAfter.all fun t => t ≤ e.2.updatedAt
  nodupKeys := s.dora.nodupKeys.sublist List.filter_sublist

/-- The first part of a run. -/
def fetch (s : State) : Fetch := ⟨s.orientationStatuses s.watermark, true⟩

/-- The row of an orientation, once the statuses are written. -/
def syncedRow (statuses : AList fun _ : String => Item) (uid : String) (row : Orientation) : Orientation :=
  (statuses.lookup uid).elim row row.synced

/-- A run writes over a row that has a more recent status than the one it has read. -/
def overtakes (s : State) (uid : String) (row : Orientation) (item : Item) : Bool :=
  row.synced item ≠ row ∧ s.dora.lookup uid ≠ some item ∧ ¬ row.doraStatusUpdatedAt.all (· < item.updatedAt)

/-- The second part of a run. `none` is the error of an orientation that is unknown here. -/
def write (s : State) (statuses : AList fun _ : String => Item) : Option State :=
  if statuses.keys.all fun uid => uid ∈ s.orientations then
    some { s with
      orientations := mapRows s.orientations (syncedRow statuses)
      logs := s.logs ++ s.orientations.entries.filterMap fun e => (statuses.lookup e.1).bind (e.2.log e.1)
      overtaken := s.overtaken ++ (s.orientations.entries.filter fun e =>
        (statuses.lookup e.1).any (s.overtakes e.1 e.2)).map Sigma.fst }
  else none

/-- A run with nothing in between. -/
def sync (s : State) : Option State := s.write s.fetch.statuses

/-- The change has an update time before one that a run has written or read. -/
def isLate (s : State) (item : Item) : Bool :=
  s.watermark.any (fun t => item.updatedAt < t) ||
    s.runs.any fun f => f.statuses.entries.any fun e => item.updatedAt < e.2.updatedAt

end State

/-! ## Steps -/

inductive Action where
  /-- A creation or a change of DORA, once committed. -/
  | change (uid : String) (item : Item)
  /-- An orientation saved here, by the wizard or by the import. -/
  | create (uid : String) (status : Status) (processingDate : Option Int) (now : Int)
  | fetch
  | write (run : Nat)
  /-- A run that fails elsewhere, or is a dry run. -/
  | abandon (run : Nat)

def State.step (s : State) : Action → Option State
  | .change uid item =>
      some { s with
        dora := s.dora.insert uid item
        runs := s.runs.map fun f => { f with latest := false }
        late := if s.isLate item then uid :: s.late else s.late.filter (· ≠ uid)
        overtaken := s.overtaken.filter (· ≠ uid) }
  | .create uid status processingDate now =>
      if uid ∈ s.orientations then none
      else some { s with orientations := s.orientations.insert uid ⟨status, processingDate, none, now⟩ }
  | .fetch => some { s with runs := s.runs ++ [s.fetch] }
  | .write n => do
      let f ← s.runs[n]?
      let s' := (s.write f.statuses).getD s
      some { s' with runs := s.runs.eraseIdx n }
  | .abandon n => some { s with runs := s.runs.eraseIdx n }

/-! ## Statements -/

namespace State

/-- Each orientation known to both sides has the status last set in DORA. -/
def InSync (s : State) : Prop :=
  ∀ e ∈ s.dora.entries, ∀ row ∈ s.orientations.lookup e.1, row.status = e.2.status

/-- A run that has read the latest statuses leaves the two sides in sync, when it ends without error. -/
def Synchronises (s : State) : Action → Prop
  | .write n => ∀ f ∈ s.runs[n]?, f.latest = true → ∀ s' ∈ s.write f.statuses, s'.InSync
  | .change _ _ | .create _ _ _ _ | .fetch | .abandon _ => True

/-- The same, but for a row more recent than DORA, a change that came late, and a row written over by a run that a newer
one had overtaken. -/
def Settled (s : State) : Prop :=
  ∀ uid item row, s.dora.lookup uid = some item → s.orientations.lookup uid = some row →
    row.status = item.status ∨ row.Ahead item ∨ uid ∈ s.late ∨ uid ∈ s.overtaken

def Settles (s : State) : Action → Prop
  | .write n => ∀ f ∈ s.runs[n]?, f.latest = true → ∀ s' ∈ s.write f.statuses, s'.Settled
  | .change _ _ | .create _ _ _ _ | .fetch | .abandon _ => True

/-- A second run changes nothing and writes no log. -/
def Steady (s : State) : Prop := ∀ s' ∈ s.sync, s'.sync = some s'

end State

/-! ## Workflow -/

namespace Transition

/-- The sources of `OrientationWorkflow.transitions`. -/
def source : Transition → Status
  | accept => .pending
  | reject => .pending
  | expire => .pending

def target : Transition → Status
  | accept => .accepted
  | reject => .rejected
  | expire => .expired

end Transition

/-- The entry is a transition of the workflow. -/
def TransitionLog.Legal (log : TransitionLog) : Prop :=
  log.fromState = log.transition.source ∧ log.toState = log.transition.target

/-- The entries lead from the first status to the second, by transitions of the workflow. -/
def IsPath : Status → List TransitionLog → Status → Prop
  | s, [], t => s = t
  | s, log :: logs, t => log.Legal ∧ log.fromState = s ∧ IsPath log.toState logs t

instance (log : TransitionLog) : Decidable log.Legal := inferInstanceAs (Decidable (_ ∧ _))

instance IsPath.decidable : (s : Status) → (logs : List TransitionLog) → (t : Status) → Decidable (IsPath s logs t)
  | s, [], t => inferInstanceAs (Decidable (s = t))
  | s, log :: logs, t =>
      have : Decidable (IsPath log.toState logs t) := IsPath.decidable log.toState logs t
      inferInstanceAs (Decidable (log.Legal ∧ log.fromState = s ∧ IsPath log.toState logs t))

/-! ## Steps -/

/-- A run that has read these statuses, or a transition that is taken here. -/
inductive LogAction where
  | sync (statuses : AList fun _ : String => Item)
  | take (uid : String) (transition : Transition) (now : Int)

namespace State

variable (s : State)

/-- The transition of an orientation: `updated_at` is set, and the engine writes the log. -/
def take (uid : String) (transition : Transition) (now : Int) : Option State := do
  let row ← s.orientations.lookup uid
  if row.status = transition.source then
    return { s with
      orientations := s.orientations.insert uid { row with status := transition.target, updatedAt := now }
      logs := s.logs ++ [⟨uid, transition, row.status, transition.target, now⟩] }
  else none

def logStep : LogAction → Option State
  | .sync statuses => s.write statuses
  | .take uid transition now => s.take uid transition now

/-! ## Statements -/

/-- The logs of an orientation, in the order of their creation. -/
def logsOf (uid : String) : List TransitionLog := s.logs.filter fun log => log.orientation = uid

/-- The logs of each orientation lead from `PENDING` to its status. -/
def LegalLogs : Prop := ∀ e ∈ s.orientations.entries, IsPath .pending (s.logsOf e.1) e.2.status

/-- The run changes orientations that are `PENDING` only. -/
def UpdatesPending : LogAction → Prop
  | .sync statuses => ∀ e ∈ s.orientations.entries, ∀ item ∈ statuses.lookup e.1,
      e.2.status = .pending ∨ item.doraStatus = e.2 ∨ e.2.Ahead item
  | .take _ _ _ => True

instance : DecidablePred LegalLogs := fun s => inferInstanceAs (Decidable (∀ e ∈ s.orientations.entries, _))

instance : (a : LogAction) → Decidable (s.UpdatesPending a)
  | .sync statuses => inferInstanceAs (Decidable (∀ e ∈ s.orientations.entries, ∀ item ∈ statuses.lookup e.1, _))
  | .take _ _ _ => .isTrue trivial

end State

end Itou.Insertion.Orientations
