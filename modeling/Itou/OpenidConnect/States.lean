import Itou.Lib.Runs
import Itou.Lib.Tables

/-!
# The states of the providers

The callbacks that carry one signed state, each in a transaction of its own, and the clean-up. A `SELECT` sees the
committed row. An `UPDATE` or a `DELETE` waits for a transaction that has written the row. An instant is a number of
microseconds.
-/

namespace Itou.OpenidConnect.OIDConnectState

open Itou.Lib

def day : Int := 86400000000

/-- `OIDC_STATE_EXPIRATION`. -/
def oidcStateExpiration : Int := 30 * day

/-- A row of `OIDConnectState`. -/
structure Row where
  createdAt : Int
  usedAt : Option Int
  deriving DecidableEq

def Row.expiredAt (r : Row) : Int := r.createdAt + oidcStateExpiration

/-- Where a callback stands: it has read the row, it is about to save its copy, it has saved it and has the answer of
`is_valid`, or it has ended. -/
inductive Phase where
  | read (copy : Row)
  | saving (copy : Row)
  | saved (copy : Row) (isValid : Bool)
  | ended
  deriving DecidableEq

/-- The callback holds the lock of the row. -/
def Phase.locks : Phase → Bool
  | saved _ _ => true
  | read _ | saving _ | ended => false

/-- The committed row, and the callbacks. `obtained` is kept for the statements: the instants at which a callback got
`True`. -/
structure State where
  now : Int
  row : Option Row
  callbacks : Table Phase
  obtained : List Int

namespace State

variable (s : State)

/-- After `save_state`. -/
def start (createdAt now : Int) : State := ⟨now, some ⟨createdAt, none⟩, ∅, []⟩

/-- `get_from_state`. Without a row, the callback goes no further. -/
def getFromState (i : Nat) : Option State :=
  if i ∈ s.callbacks then none
  else some { s with callbacks := s.callbacks.insert i (s.row.elim .ended .read) }

/-- The first part of `is_valid`, on the copy. -/
def checkUsed (i : Nat) : Option State :=
  match s.callbacks.lookup i with
  | some (.read copy) =>
      let phase : Phase := if copy.usedAt.isSome then .ended else .saving { copy with usedAt := some s.now }
      some { s with callbacks := s.callbacks.insert i phase }
  | _ => none

/-- The save and the end of `is_valid`. It waits for the lock. A row that was deleted is inserted again. -/
def save (i : Nat) : Option State :=
  match s.callbacks.lookup i with
  | some (.saving copy) =>
      if s.callbacks.rows.any Phase.locks then none
      else
        let isValid : Bool := s.now < copy.expiredAt
        some { s with
          callbacks := s.callbacks.insert i (.saved copy isValid)
          obtained := if isValid then s.now :: s.obtained else s.obtained }
  | _ => none

/-- The end of the request. -/
def commit (i : Nat) : Option State :=
  match s.callbacks.lookup i with
  | some (.saved copy _) => some { s with row := some copy, callbacks := s.callbacks.insert i .ended }
  | some _ => some { s with callbacks := s.callbacks.insert i .ended }
  | none => none

/-- The request fails. What it has written is undone. -/
def rollback (i : Nat) : Option State :=
  if i ∈ s.callbacks then some { s with callbacks := s.callbacks.insert i .ended } else none

/-- `cleanup`. -/
def cleanup (atTime : Int) : Option State :=
  if s.row.any fun r => r.createdAt ≤ atTime then
    if s.callbacks.rows.any Phase.locks then none else some { s with row := none }
  else some s

end State

inductive Action where
  | getFromState (i : Nat)
  | checkUsed (i : Nat)
  | save (i : Nat)
  | commit (i : Nat)
  | rollback (i : Nat)
  | cleanup (atTime : Int)
  | wait (now : Int)
  deriving DecidableEq

/-- One step. -/
def State.step (s : State) : Action → Option State
  | .getFromState i => s.getFromState i
  | .checkUsed i => s.checkUsed i
  | .save i => s.save i
  | .commit i => s.commit i
  | .rollback i => s.rollback i
  | .cleanup atTime => s.cleanup atTime
  | .wait now => if s.now ≤ now then some { s with now } else none

/-! ## Statements -/

/-- At most one callback has got `True`. -/
def State.UsedOnce (s : State) : Prop := s.obtained.length ≤ 1

/-- No callback has got `True` once the state was expired. -/
def State.UsedInTime (createdAt : Int) (s : State) : Prop := ∀ t ∈ s.obtained, t < createdAt + oidcStateExpiration

/-- The callback has found the state unused, and its request is not over. -/
def Phase.Pending : Phase → Prop
  | .read copy => copy.usedAt = none
  | .saving _ => True
  | .saved _ _ => True
  | .ended => False

instance : DecidablePred Phase.Pending
  | .read copy => inferInstanceAs (Decidable (copy.usedAt = none))
  | .saving _ => .isTrue trivial
  | .saved _ _ => .isTrue trivial
  | .ended => .isFalse id

/-- The callback has got `True`. -/
def Phase.Succeeded : Phase → Prop
  | .saved _ isValid => isValid = true
  | .read _ | .saving _ | .ended => False

instance : DecidablePred Phase.Succeeded
  | .saved _ isValid => inferInstanceAs (Decidable (isValid = true))
  | .read _ | .saving _ | .ended => .isFalse id

/-- A callback reads the row when no other is pending, unless it is used, and the request of a callback that has got
`True` does not fail. -/
def State.OneByOne (s : State) : Action → Prop
  | .getFromState _ => (∃ r ∈ s.row, r.usedAt = none) → ∀ p ∈ s.callbacks.rows, ¬ p.Pending
  | .rollback i => ∀ p ∈ s.callbacks.lookup i, ¬ p.Succeeded
  | .checkUsed _ | .save _ | .commit _ | .cleanup _ | .wait _ => True

end Itou.OpenidConnect.OIDConnectState
