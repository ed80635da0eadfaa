import Itou.Lib.Decimal
import Itou.Lib.Queries
import Itou.Lib.Tables

/-!
# Numbers of approvals

`Approval.save` takes a number from `get_next_number`, and `Approval.delete` copies it into `CancelledApproval`.
Transactions run these statement by statement, in any order. Each `SELECT` sees the rows committed before it and those
of its own transaction. A locking `SELECT` finds its rows first, waits for their locks, and passes over those that
were deleted meanwhile. Locks are held to the end of the transaction.
-/

namespace Itou.Approvals.Numbers

open Itou.Lib

/-- A row of `approvals_approval` or of `approvals_cancelledapproval`. -/
structure Row where
  pk : Nat
  number : List Char
  deriving DecidableEq

/-! ## The number -/

section Number

variable (itouPrefix : List Char)

/-- `number__startswith=Approval.ASP_ITOU_PREFIX`. -/
def Prefixed (number : List Char) : Prop := itouPrefix.isPrefixOf number = true

instance : DecidablePred (Prefixed itouPrefix) := fun _ => inferInstanceAs (Decidable (_ = true))

/-- The digits that follow `ASP_ITOU_PREFIX`. -/
def serial (number : List Char) : List Char := number.drop itouPrefix.length

/-- The prefix followed by seven digits. -/
def WellNumbered (number : List Char) : Prop :=
  Prefixed itouPrefix number ∧ IsDecimal 7 (serial itouPrefix number)

instance : DecidablePred (WellNumbered itouPrefix) := fun _ => inferInstanceAs (Decidable (_ ∧ _))

/-- The number as an integer, without the prefix. -/
def value (number : List Char) : Nat := valueOf (serial itouPrefix number)

/-- What `last_number` returns after its lock: `int` can raise. -/
def lastNumber (rows : List Row) : Option Nat :=
  match (orderByDesc Row.number (rows.filter fun row => Prefixed itouPrefix row.number)).head? with
  | none => some 0
  | some row => if row.number = [] then some 0 else parseInt (serial itouPrefix row.number)

/-- `max(Approval.last_number(), CancelledApproval.last_number()) + 1`, which raises above `9999999`. -/
def nextNumber (lastApproval lastCancelled : Nat) : Option Nat :=
  if max lastApproval lastCancelled + 1 > 9999999 then none else some (max lastApproval lastCancelled + 1)

/-- `f"{Approval.ASP_ITOU_PREFIX}{next_number:07d}"`. -/
def format (n : Nat) : List Char := itouPrefix ++ zeroPadded 7 n

end Number

/-! ## Transactions -/

/-- Where a transaction stands in `get_next_number`: the rows that a locking `SELECT` found, the last numbers
that were read, and the number to save. -/
inductive Phase where
  | idle
  | selectApproval (found : List Nat)
  | lockedApproval
  | lastApproval (last : Nat)
  | selectCancelled (last : Nat) (found : List Nat)
  | lockedCancelled (last : Nat)
  | number (n : Nat)
  deriving DecidableEq

/-- What the locking `SELECT` on `Approval` found. -/
def Phase.found : Phase → List Nat
  | .selectApproval found => found
  | _ => []

/-- A transaction that creates approvals: the primary keys of the rows it has locked, and its rows. -/
structure Creator where
  phase : Phase
  approvalLocks : List Nat
  cancelledLocks : List Nat
  rows : List Row
  deriving DecidableEq

/-- A transaction that cancels an approval. -/
structure Canceller where
  approval : Row
  cancelled : Row
  deleted : Bool
  deriving DecidableEq

inductive Transaction where
  | creator (c : Creator)
  | canceller (c : Canceller)
  deriving DecidableEq

namespace Transaction

/-- The rows of `Approval` under a lock: a `DELETE` locks its row. -/
def approvalLocks : Transaction → List Nat
  | .creator c => c.approvalLocks
  | .canceller c => if c.deleted then [c.approval.pk] else []

def cancelledLocks : Transaction → List Nat
  | .creator c => c.cancelledLocks
  | .canceller _ => []

/-- The rows inserted in `Approval`. -/
def approvals : Transaction → List Row
  | .creator c => c.rows
  | .canceller _ => []

/-- The rows inserted in `CancelledApproval`. -/
def cancelled : Transaction → List Row
  | .creator _ => []
  | .canceller c => [c.cancelled]

/-- All the statements are done. -/
def Done : Transaction → Prop
  | .creator c => c.phase = .idle
  | .canceller c => c.deleted = true

instance : DecidablePred Done
  | .creator _ => inferInstanceAs (Decidable (_ = _))
  | .canceller _ => inferInstanceAs (Decidable (_ = _))

end Transaction

/-- The committed rows, the next primary keys and the transactions that run. -/
structure State where
  approvals : List Row
  cancelled : List Row
  nextApproval : Nat
  nextCancelled : Nat
  transactions : Table Transaction

/-! ## Statements -/

/-- Lock the first of the rows found that is still there. This waits (`none`) as long as another transaction holds it. -/
def lockFirst (found : List Nat) (rows : List Row) (held : List Nat) : Option (List Nat) :=
  match found.find? fun pk => pk ∈ rows.map Row.pk with
  | none => some []
  | some pk => if pk ∈ held then none else some [pk]

/-- The statements of `get_next_number`. -/
inductive Query where
  | selectApproval
  | lockApproval
  | readApproval
  | selectCancelled
  | lockCancelled
  | readCancelled
  deriving DecidableEq

inductive Op where
  | begin
  | query (q : Query)
  | insert
  | cancel (approval : Row)
  | delete
  | commit
  | abort
  deriving DecidableEq

/-- The `DELETE` of the approval. -/
def Canceller.delete (others : List Transaction) (c : Canceller) : Option Canceller :=
  if c.deleted = true ∨ c.approval.pk ∈ others.flatMap Transaction.approvalLocks then none
  else some { c with deleted := true }

namespace State

variable (itouPrefix : List Char) (s : State)

/-- The other transactions. -/
def others (tid : Nat) : List Transaction := Table.rows (s.transactions.erase tid)

/-- The rows of `Approval` that the transaction sees. -/
def visible (c : Creator) : List Row := s.approvals ++ c.rows

/-- One statement of `get_next_number`. -/
def query (others : List Transaction) (c : Creator) (q : Query) : Option Creator :=
  match c.phase, q with
  | .idle, .selectApproval =>
      some { c with phase := .selectApproval (orderBy id ((s.visible c).map Row.pk)) }
  | .selectApproval found, .lockApproval =>
      (lockFirst found (s.visible c) (others.flatMap Transaction.approvalLocks)).map fun locks =>
        { c with phase := .lockedApproval, approvalLocks := locks ++ c.approvalLocks }
  | .lockedApproval, .readApproval =>
      (lastNumber itouPrefix (s.visible c)).map fun last => { c with phase := .lastApproval last }
  | .lastApproval last, .selectCancelled =>
      some { c with phase := .selectCancelled last (orderBy id (s.cancelled.map Row.pk)) }
  | .selectCancelled last found, .lockCancelled =>
      (lockFirst found s.cancelled (others.flatMap Transaction.cancelledLocks)).map fun locks =>
        { c with phase := .lockedCancelled last, cancelledLocks := locks ++ c.cancelledLocks }
  | .lockedCancelled last, .readCancelled =>
      (lastNumber itouPrefix s.cancelled).bind fun lastCancelled =>
        (nextNumber last lastCancelled).map fun n => { c with phase := .number n }
  | _, _ => none

/-- The `INSERT` of the approval that is saved. The unique index is checked against all rows, so that it waits for
the other transactions. -/
def insert (others : List Transaction) (c : Creator) : Option Creator :=
  match c.phase with
  | .number n =>
      if ∃ row ∈ s.visible c ++ others.flatMap Transaction.approvals, row.number = format itouPrefix n then none
      else some { c with phase := .idle, rows := ⟨s.nextApproval, format itouPrefix n⟩ :: c.rows }
  | _ => none

/-- The `INSERT` of the cancelled approval. -/
def cancel (others : List Transaction) (approval : Row) : Option Canceller :=
  if approval ∈ s.approvals ∧
      ∀ row ∈ s.cancelled ++ others.flatMap Transaction.cancelled, row.number ≠ approval.number
  then some { approval, cancelled := ⟨s.nextCancelled, approval.number⟩, deleted := false }
  else none

def commit (tid : Nat) : Transaction → State
  | .creator c => { s with approvals := s.approvals ++ c.rows, transactions := s.transactions.erase tid }
  | .canceller c => { s with
      approvals := s.approvals.filter fun row => row.pk ≠ c.approval.pk
      cancelled := s.cancelled ++ [c.cancelled]
      transactions := s.transactions.erase tid }

def put (tid : Nat) (t : Transaction) : State := { s with transactions := s.transactions.insert tid t }

/-- One statement of one transaction. -/
def step (label : Nat × Op) : Option State :=
  match label.2, s.transactions.lookup label.1 with
  | .begin, none => some (s.put label.1 (.creator ⟨.idle, [], [], []⟩))
  | .query q, some (.creator c) =>
      (s.query itouPrefix (s.others label.1) c q).map fun c' => s.put label.1 (.creator c')
  | .insert, some (.creator c) => (s.insert itouPrefix (s.others label.1) c).map fun c' =>
      { s.put label.1 (.creator c') with nextApproval := s.nextApproval + 1 }
  | .cancel approval, none => (s.cancel (s.others label.1) approval).map fun c =>
      { s.put label.1 (.canceller c) with nextCancelled := s.nextCancelled + 1 }
  | .delete, some (.canceller c) => (c.delete (s.others label.1)).map fun c' => s.put label.1 (.canceller c')
  | .commit, some t => if t.Done then some (s.commit label.1 t) else none
  | .abort, some _ => some { s with transactions := s.transactions.erase label.1 }
  | _, _ => none

/-! ## What a run is judged by -/

/-- The transaction, when it creates approvals. -/
def creator (tid : Nat) : Option Creator :=
  match s.transactions.lookup tid with
  | some (.creator c) => some c
  | _ => none

/-- The lock on `Approval`, when it is taken, falls on a row: one of those found is still there. -/
def LockFindsRow (label : Nat × Op) : Prop :=
  label.2 = .query .lockApproval → ∀ c ∈ s.creator label.1, ∃ row ∈ s.visible c, row.pk ∈ c.phase.found

/-- The numbers that are committed are greater than all those in the two tables. -/
def CommitsFresh (label : Nat × Op) : Prop :=
  label.2 = .commit → ∀ c ∈ s.creator label.1, ∀ row ∈ c.rows, ∀ old ∈ s.approvals ++ s.cancelled,
    Prefixed itouPrefix old.number → value itouPrefix old.number < value itouPrefix row.number

/-- No number is there twice, live or cancelled. -/
def Distinct : Prop := ((s.approvals ++ s.cancelled).map Row.number).Nodup

instance (label : Nat × Op) : Decidable (s.LockFindsRow label) := inferInstanceAs (Decidable (_ → ∀ _ ∈ _, _))

instance (label : Nat × Op) : Decidable (s.CommitsFresh itouPrefix label) :=
  inferInstanceAs (Decidable (_ → ∀ _ ∈ _, ∀ _ ∈ _, ∀ _ ∈ _, _ → _))

instance : DecidablePred Distinct := fun _ => inferInstanceAs (Decidable (List.Nodup _))

/-- No transaction runs yet. The tables are not empty, and their prefixed numbers are well formed. -/
structure Start : Prop where
  approvals : s.approvals ≠ []
  cancelled : s.cancelled ≠ []
  pks : (s.approvals.map Row.pk).Nodup
  nextApproval : ∀ row ∈ s.approvals, row.pk < s.nextApproval
  wellNumbered : ∀ row ∈ s.approvals ++ s.cancelled,
    Prefixed itouPrefix row.number → WellNumbered itouPrefix row.number
  distinct : s.Distinct
  transactions : s.transactions = ∅

end State

end Itou.Approvals.Numbers
