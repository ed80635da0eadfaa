import Itou.Prolongations.Views

/-!
# `CommonProlongation.clean`

The model check of a prolongation or of a request, new or edited, and the two limits of `PROLONGATION_RULES`.
-/

namespace Itou.Prolongations

open Itou.Lib Itou.Approvals

/-- The class of the instance, with its primary key when it is saved already. -/
inductive Saved where
  | prolongation (pk : Option Nat)
  | request (pk : Option Nat)
  deriving DecidableEq

def Saved.pk : Saved → Option Nat
  | .prolongation pk | .request pk => pk

section Clean

variable (db : Db)

/-- `get_cumulative_duration_for`, but for the primary keys to ignore. -/
def Db.cumulativeDurationFor (approval : Nat) (ignore : Option Nat) : Int :=
  ((db.prolongations.entries.filter fun e => e.2.approvalId = approval && some e.1 ≠ ignore).map fun e =>
    e.2.duration).sum

/-- `get_max_end_at`. -/
def Db.getMaxEndAt (approval : Nat) (startAt : Int) (reason : Reason) (ignore : Option Nat) : Int :=
  match reason.maxCumulativeDuration with
  | none => startAt + reason.maxDuration
  | some maxCumulativeDuration => startAt + (maxCumulativeDuration - db.cumulativeDurationFor approval ignore)

/-- `clean`. `siae` is `declared_by_siae`, and `isMember` says whether the declarant has a membership, active or not,
in that SIAE. -/
def Db.cleanCommon (isMember : Nat → Nat → Bool) (saved : Saved) (siae : Option Company) (p : CommonProlongation) :
    Bool :=
  1 ≤ p.duration && p.endAt ≤ db.getMaxEndAt p.approvalId p.startAt p.reason saved.pk &&
    (p.reason ≠ .particularDifficulties || siae.any fun c => c.kind ∈ [CompanyKind.ai, CompanyKind.aci]) &&
    (match db.approvals.lookup p.approvalId with
      | none => false
      -- Only new instances have to start where the approval ends.
      | some approval => saved.pk.isSome || p.startAt = approval.endAt) &&
    (if p.reason.allowsReportFile then
      !p.requirePhoneInterview || (p.contactEmail ≠ "" && p.contactPhone ≠ "")
    else !p.requirePhoneInterview && p.contactEmail = "" && p.contactPhone = "") &&
    p.declaredBy.all fun user => p.declaredBySiae.any fun siae => isMember siae user

/-! ## Limits -/

/-- A prolongation of the table is the instance itself, or the one that was created from the request. -/
def Saved.isOwn : Saved → Nat → Prolongation → Bool
  | .prolongation pk, k, _ => pk = some k
  | .request none, _, _ => false
  | .request (some pk), _, p => p.request = some pk

/-- The prolongations of the approval but for the instance. -/
def Db.othersDuration (saved : Saved) (approval : Nat) : Int :=
  ((db.prolongations.entries.filter fun e => e.2.approvalId = approval && !saved.isOwn e.1 e.2).map fun e =>
    e.2.duration).sum

/-- Both limits of the reason hold, with the instance counted once. -/
structure Db.RespectsRules (saved : Saved) (p : CommonProlongation) : Prop where
  duration : p.duration ≤ p.reason.maxDuration
  cumulative : ∀ limit ∈ p.reason.maxCumulativeDuration,
    db.othersDuration saved p.approvalId + p.duration ≤ limit

/-- The limit of one request, for the reasons whose cumulative limit is larger. -/
def CommonProlongation.MeetsMaxDuration (p : CommonProlongation) : Prop :=
  p.reason ∈ [Reason.rqth, .senior, .particularDifficulties] → p.duration ≤ 365

/-- A prolongation of the same approval has, by accident, the primary key of the request. -/
def Db.Collides (saved : Saved) (approval : Nat) : Prop :=
  ∃ pk, saved = .request (some pk) ∧ ∃ q ∈ db.prolongations.lookup pk, q.approvalId = approval ∧ q.request ≠ some pk

/-- In that case only, the cumulative limit is not what `clean` has checked. -/
def Db.CollisionFits (saved : Saved) (p : CommonProlongation) : Prop :=
  db.Collides saved p.approvalId → ∀ limit ∈ p.reason.maxCumulativeDuration,
    db.othersDuration saved p.approvalId + p.duration ≤ limit

end Clean

end Itou.Prolongations
