import Itou.Approvals.Hiring
import Itou.Lib.Uncovered

/-!
# Suspensions and the days that are left

What `Suspension.clean` accepts, the days of an approval that a suspension does not cover, and the `remainder` that the
code computes from them. A suspension has both its first and its last day; `addMonths` is `relativedelta`.
-/

namespace Itou.Approvals

open Itou.Lib

/-! ## Days left -/

section Remainder

variable (today : Int) (a : Approval) (suspensionSet : List Suspension)

/-- `_get_obj_remainder`, of what has these dates. -/
def getObjRemainder (startAt endAt : Int) : Int := max (endAt - today + 1) 0 - max (startAt - today) 0

/-- `Approval.remainder`, in days. -/
def Approval.remainder : Int :=
  getObjRemainder today a.startAt a.endAt -
    (suspensionSet.map fun s => getObjRemainder today s.startAt s.endAt).sum

/-- `Approval.remainder_as_date`. -/
def Approval.remainderAsDate : Int := min (max a.startAt today + (a.remainder today suspensionSet - 1)) a.endAt

end Remainder

/-- The days of a period, both bounds included: the range of `exclude_overlapping_suspensions`. -/
def Period.days (p : Period) : Finset Int := daysBetween p.startAt p.endAt

/-- The days of an approval from a given day on that belong to no suspension. -/
def Approval.usableDays (a : Approval) (fromDay : Int) (suspensionSet : List Suspension) : Finset Int :=
  uncovered (daysBetween (max fromDay a.startAt) a.endAt) (suspensionSet.map fun s => s.days)

/-- A list of periods of an approval: each has its dates in order and is in the period of the approval, and no two of
them share a day. -/
structure Fits (a : Approval) (suspensionSet : List Suspension) : Prop where
  ordered : ∀ s ∈ suspensionSet, s.startAt ≤ s.endAt
  contained : ∀ s ∈ suspensionSet, a.startAt ≤ s.startAt ∧ s.endAt ≤ a.endAt
  disjoint : suspensionSet.Pairwise fun s s' => s.endAt < s'.startAt ∨ s'.endAt < s.startAt

/-! ## `Suspension.clean` -/

/-- `Suspension.MAX_DURATION_MONTHS`. -/
def Suspension.maxDurationMonths : Int := 36

/-- `Suspension.MAX_RETROACTIVITY_DURATION_DAYS`. -/
def Suspension.maxRetroactivityDurationDays : Int := 365

/-- `Suspension.get_max_end_at`. -/
def Suspension.getMaxEndAt (addMonths : Int → Int → Int) (startAt : Int) : Int :=
  addMonths startAt Suspension.maxDurationMonths - 1

/-- `approval.suspension_set.all()`. -/
def Db.suspensionSet (db : Db) (id : Nat) : List Suspension := db.suspensions.rows.filter fun s => s.approvalId = id

/-- `Approval.last_old_suspension`. -/
def Db.lastOldSuspension (db : Db) (today : Int) (id : Nat) (excludePk : Option Nat) : Option Suspension :=
  ((orderBy (fun e => e.2.startAt) ((db.suspensions.entries.map fun e => (e.1, e.2)).filter fun e =>
    e.2.approvalId = id && e.2.endAt < today && some e.1 ≠ excludePk)).getLast?).map (·.2)

/-- `Suspension.next_min_start_at`, given the hiring date of the last accepted job application. A suspension that is
saved already has a primary key, and its date of creation is the referent date. -/
def Db.nextMinStartAt (db : Db) (today : Int) (lastHiringStartAt : Option Int) (id : Nat)
    (saved : Option (Nat × Int)) : Int :=
  let threshold := (saved.map (·.2)).getD today - Suspension.maxRetroactivityDurationDays
  let startAt := match db.lastOldSuspension today id (saved.map (·.1)) with
    | some lastOldSuspension => some (lastOldSuspension.endAt + 1)
    | none => lastHiringStartAt
  match startAt with
  | none => threshold
  | some startAt => if startAt < threshold then threshold else startAt

/-- `Suspension.clean`, of a suspension of the approval `a`. -/
def Db.cleanSuspension (addMonths : Int → Int → Int) (db : Db) (today : Int) (lastHiringStartAt : Option Int)
    (saved : Option (Nat × Int)) (a : Approval) (reasonExplanation : String) (s : Suspension) : Bool :=
  (s.reason ≠ .forceMajeure || reasonExplanation ≠ "") && s.startAt ≤ s.endAt &&
    s.endAt ≤ Suspension.getMaxEndAt addMonths s.startAt && a.startAt ≤ s.startAt && s.startAt ≤ a.endAt &&
    db.nextMinStartAt today lastHiringStartAt s.approvalId saved ≤ s.startAt

/-! ## Rights -/

/-- A new suspension is accepted, on a day of its approval, and inserted. The approval meets its own check. -/
structure Db.Suspends (addMonths : Int → Int → Int) (db : Db) (now : DateTime) (lastHiringStartAt : Option Int)
    (reasonExplanation : String) (k : Nat) (s : Suspension) (a : Approval) (db' : Db) : Prop where
  approval : db.approvals.lookup s.approvalId = some a
  startBeforeEnd : a.startAt < a.endAt
  today : a.startAt ≤ now.date ∧ now.date ≤ a.endAt
  clean : db.cleanSuspension addMonths now.date lastHiringStartAt none a reasonExplanation s
  inserted : db.exec now (.suspension (.insert k s)) = some db'

/-- The number of usable days of an approval, from its start to its end. -/
def Db.usableDays (db : Db) (id : Nat) : Option Nat :=
  (db.approvals.lookup id).map fun a => (a.usableDays a.startAt (db.suspensionSet id)).card

/-- The deletion of a suspension gives its approval the end that it had in `db`. -/
def Db.Restores (db db' : Db) (k : Nat) (s : Suspension) : Prop :=
  ∀ now, ∃ db'', db'.exec now (.suspension (.delete k)) = some db'' ∧
    (db''.approvals.lookup s.approvalId).map Approval.endAt = (db.approvals.lookup s.approvalId).map Approval.endAt

/-- From `db` to `db'`, the suspension has not consumed rights, and its deletion undoes it. -/
structure Db.KeepsRights (db db' : Db) (k : Nat) (s : Suspension) : Prop where
  usableDays : db'.usableDays s.approvalId = db.usableDays s.approvalId
  restores : db.Restores db' k s

/-- From `db` to `db'`, the suspension `k` and its approval have only been shortened, for a hiring. -/
structure Db.OnlyShortens (db db' : Db) (k : Nat) (s : Suspension) (hiringStartAt : Int) : Prop where
  suspension : ∀ s' ∈ db'.suspensions.lookup k, s'.approvalId = s.approvalId ∧
    s.startAt ≤ s'.startAt ∧ s'.endAt ≤ s.endAt ∧ s'.endAt < hiringStartAt ∧ s'.startAt ≤ s'.endAt
  approval : ∀ a ∈ db.approvals.lookup s.approvalId, ∀ a' ∈ db'.approvals.lookup s.approvalId, a'.endAt ≤ a.endAt

end Itou.Approvals
