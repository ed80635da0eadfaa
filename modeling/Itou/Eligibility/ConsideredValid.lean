import Itou.Approvals.Hiring
import Itou.Eligibility.Iae

/-!
# Diagnoses that approvals keep valid

A diagnosis is considered valid for the whole duration of an approval that is attached to it. The code says so in four
places: `Approval.is_valid`, `is_considered_valid`, `considered_to_expire_at` and `has_considered_valid`.
-/

namespace Itou.Eligibility

open Itou.Lib
open Itou.Approvals (Approval)

/-- The diagnoses, the approvals, and the column `eligibility_diagnosis` of the approvals. -/
structure Registry where
  diagnoses : List EligibilityDiagnosis
  db : Approvals.Db
  eligibilityDiagnosis : Nat → Option Nat

namespace Registry

variable (r : Registry) (today : Int)

/-- `approval_set.all()`, the last created first. -/
def approvalSet (d : EligibilityDiagnosis) : List Approval :=
  (orderByDesc (fun e => e.2.createdAt) ((r.db.approvals.entries.map fun e => (e.1, e.2)).filter fun e =>
    r.eligibilityDiagnosis e.1 = some d.pk)).map (·.2)

/-- `EligibilityDiagnosis.is_considered_valid`. -/
def isConsideredValid (d : EligibilityDiagnosis) : Bool :=
  d.isValid today || (r.approvalSet d).any fun a => today < a.endAt

/-- The end of an approval that is valid, else the end of the diagnosis. -/
def expiresWith (d : EligibilityDiagnosis) : Option Approval → Int
  | some a => if a.isValid today then a.endAt else d.expiresAt
  | none => d.expiresAt

/-- `EligibilityDiagnosis.considered_to_expire_at`. The approvals are in the order of the table, and
`approval_set.last()` is the end of that order. -/
def consideredToExpireAt (d : EligibilityDiagnosis) : Int := expiresWith today d (r.approvalSet d).getLast?

/-- `User.has_valid_approval`. -/
def hasValidApproval (waitingPeriodEnd : Int → Int) (jobSeeker : User) : Bool :=
  (r.db.latestApproval today waitingPeriodEnd jobSeeker).any fun e => e.2.isValid today

/-- `EligibilityDiagnosis.objects.has_considered_valid`. -/
def hasConsideredValid (waitingPeriodEnd : Int → Int) (jobSeeker : User) (forSiae : Option Nat) : Bool :=
  r.hasValidApproval today waitingPeriodEnd jobSeeker ||
    (lastConsideredValid r.diagnoses today (r.hasValidApproval today waitingPeriodEnd jobSeeker) jobSeeker.pk
      forSiae).isSome

end Registry

/-- The SIAE that can see a diagnosis as its own. -/
def EligibilityDiagnosis.authorSiae (d : EligibilityDiagnosis) : Option Nat :=
  match d.author with
  | .prescriber _ => none
  | .employer siae => some siae

/-! ## Agreement -/

section Agreement

variable (r : Registry) (today : Int) (waitingPeriodEnd : Int → Int) (jobSeeker : User) (d : EligibilityDiagnosis)

/-- What the four places say of a diagnosis on one day goes together. -/
structure Registry.Agrees : Prop where
  isConsideredValid : r.isConsideredValid today d = (d.isValid today || (r.approvalSet d).any fun a => a.isValid today)
  consideredToExpireAt : r.consideredToExpireAt today d = Registry.expiresWith today d (r.approvalSet d).head?
  valid : r.isConsideredValid today d = true → today ≤ r.consideredToExpireAt today d
  expired : r.isConsideredValid today d = false → r.consideredToExpireAt today d ≤ today
  hasConsideredValid : r.isConsideredValid today d = true →
    r.hasConsideredValid today waitingPeriodEnd jobSeeker d.authorSiae = true

/-- An approval attached to the diagnosis is on its last day: then the diagnosis is valid by itself, or another
approval attached to it ends later. -/
def Registry.LastDayCovered : Prop :=
  ∀ a ∈ r.approvalSet d, a.endAt = today → today < d.expiresAt ∨ ∃ b ∈ r.approvalSet d, today < b.endAt

/-- The first created and the last created of the approvals attached to the diagnosis: both have ended, or both are
valid with the same end, or the valid one ends on the day of `expires_at`. -/
def Registry.SameExpiry : Prop :=
  ∀ first ∈ (r.approvalSet d).getLast?, ∀ last ∈ (r.approvalSet d).head?,
    (today ≤ first.endAt → today ≤ last.endAt → first.endAt = last.endAt) ∧
      (today ≤ first.endAt → last.endAt < today → first.endAt = d.expiresAt) ∧
      (first.endAt < today → today ≤ last.endAt → last.endAt = d.expiresAt)

/-- When an approval attached to the diagnosis is valid, the last created one is, or the diagnosis ends today at the
earliest. -/
def Registry.LastIsValid : Prop :=
  (∃ a ∈ r.approvalSet d, today ≤ a.endAt) →
    today ≤ d.expiresAt ∨ ∃ last ∈ (r.approvalSet d).head?, today ≤ last.endAt

/-- The job seeker of the diagnosis, which is in the table with approvals of the same job seeker attached. -/
structure Registry.Attached : Prop where
  diagnosis : d ∈ r.diagnoses
  owner : d.jobSeeker = jobSeeker.pk ∧ jobSeeker.isJobSeeker = true
  approvals : ∀ a ∈ r.approvalSet d, a.user = jobSeeker.pk

end Agreement

/-! ## The four places -/

section Places

variable {r : Registry} {today : Int} {waitingPeriodEnd : Int → Int} {jobSeeker : User} {d : EligibilityDiagnosis}

theorem mem_table_of_approvalSet {a : Approval} (h : a ∈ r.approvalSet d) :
    ∃ k, (k, a) ∈ r.db.approvals.entries.map fun e => (e.1, e.2) := by
  simp only [Registry.approvalSet, List.mem_map, mem_orderByDesc, List.mem_filter] at h
  obtain ⟨e, ⟨hmem, _⟩, rfl⟩ := h
  exact ⟨e.1, List.mem_map.mpr hmem⟩

theorem expiresWith_eq_iff (first last : Approval) :
    Registry.expiresWith today d (some first) = Registry.expiresWith today d (some last) ↔
      (today ≤ first.endAt → today ≤ last.endAt → first.endAt = last.endAt) ∧
        (today ≤ first.endAt → last.endAt < today → first.endAt = d.expiresAt) ∧
        (first.endAt < today → today ≤ last.endAt → last.endAt = d.expiresAt) := by
  simp only [Registry.expiresWith, Approval.isValid, decide_eq_true_eq]
  split <;> split <;> omega

theorem consideredToExpireAt_iff : r.consideredToExpireAt today d =
    Registry.expiresWith today d (r.approvalSet d).head? ↔ r.SameExpiry today d := by
  unfold Registry.consideredToExpireAt Registry.SameExpiry
  cases hset : r.approvalSet d with
  | nil => simp
  | cons last rest =>
      obtain ⟨first, hfirst⟩ := Option.isSome_iff_exists.mp (show (last :: rest).getLast?.isSome from by simp)
      rw [hfirst, List.head?_cons, expiresWith_eq_iff]
      simp

theorem isConsideredValid_iff : (r.isConsideredValid today d =
    (d.isValid today || (r.approvalSet d).any fun a => a.isValid today)) ↔ r.LastDayCovered today d := by
  rw [Bool.eq_iff_iff]
  simp only [Registry.isConsideredValid, EligibilityDiagnosis.isValid, Approval.isValid, Bool.or_eq_true,
    List.any_eq_true, decide_eq_true_eq, Registry.LastDayCovered]
  constructor
  · intro h a ha hlast
    exact h.mpr (Or.inr ⟨a, ha, hlast.ge⟩)
  · intro h
    constructor
    · exact Or.imp_right fun ⟨a, ha, hlt⟩ => ⟨a, ha, hlt.le⟩
    · rintro (hvalid | ⟨a, ha, hle⟩)
      · exact Or.inl hvalid
      · rcases hle.lt_or_eq with hlt | heq
        · exact Or.inr ⟨a, ha, hlt⟩
        · exact h a ha heq.symm

theorem hasValidApproval_of_attached (hattached : r.Attached jobSeeker d) {a : Approval} (ha : a ∈ r.approvalSet d)
    (hvalid : a.isValid today = true) : r.hasValidApproval today waitingPeriodEnd jobSeeker = true := by
  obtain ⟨k, hmem⟩ := mem_table_of_approvalSet ha
  have hof : (k, a) ∈ (r.db.approvalsOf jobSeeker.pk).filter fun e => e.2.isValid today := by
    refine List.mem_filter.mpr ⟨?_, hvalid⟩
    exact mem_orderByDesc.mpr (List.mem_filter.mpr ⟨hmem, decide_eq_true (hattached.approvals a ha)⟩)
  unfold Registry.hasValidApproval Approvals.Db.latestApproval
  rw [hattached.owner.2]
  cases hlist : (r.db.approvalsOf jobSeeker.pk).filter fun e => e.2.isValid today with
  | nil => exact absurd hof (by rw [hlist]; exact List.not_mem_nil)
  | cons e rest =>
      have he := List.mem_filter.mp (hlist ▸ List.mem_cons_self : e ∈ _)
      simpa using he.2

theorem isSome_lastConsideredValid {diagnoses : List EligibilityDiagnosis} {hasValidApproval : Bool} {pk : Nat}
    {forSiae : Option Nat} (h : d ∈ consideredValid diagnoses today hasValidApproval pk forSiae) :
    (lastConsideredValid diagnoses today hasValidApproval pk forSiae).isSome = true := by
  cases hlast : lastConsideredValid diagnoses today hasValidApproval pk forSiae with
  | some _ => rfl
  | none =>
      rw [lastConsideredValid_eq_none hlast] at h
      exact absurd h List.not_mem_nil

theorem mem_consideredValid_of_isValid (hattached : r.Attached jobSeeker d) (hvalid : d.isValid today = true)
    (hasValidApproval : Bool) : d ∈ consideredValid r.diagnoses today hasValidApproval jobSeeker.pk d.authorSiae := by
  refine List.mem_filter.mpr ⟨List.mem_filter.mpr ⟨hattached.diagnosis, ?_⟩, by rw [hvalid, Bool.or_true]⟩
  rw [decide_eq_true hattached.owner.1, Bool.true_and]
  unfold EligibilityDiagnosis.isFromPrescriber EligibilityDiagnosis.authorSiae
  cases d.author <;> simp

/-- A diagnosis that is considered valid counts for its job seeker. -/
theorem hasConsideredValid_of_isConsideredValid (hattached : r.Attached jobSeeker d)
    (h : r.isConsideredValid today d = true) :
    r.hasConsideredValid today waitingPeriodEnd jobSeeker d.authorSiae = true := by
  simp only [Registry.isConsideredValid, Bool.or_eq_true, List.any_eq_true, decide_eq_true_eq] at h
  rcases h with hvalid | ⟨a, ha, hlt⟩
  · exact Bool.or_eq_true_iff.mpr
      (Or.inr (isSome_lastConsideredValid (mem_consideredValid_of_isValid hattached hvalid _)))
  · exact Bool.or_eq_true_iff.mpr
      (Or.inl (hasValidApproval_of_attached hattached ha (decide_eq_true hlt.le)))

/-- With the right approval, the date of expiry does not contradict the validity exactly when that approval is valid
as soon as one of them is. -/
theorem today_le_expiresWith_iff (hexpiry : r.consideredToExpireAt today d =
    Registry.expiresWith today d (r.approvalSet d).head?) (hvalid : r.isConsideredValid today d =
      (d.isValid today || (r.approvalSet d).any fun a => a.isValid today)) :
    (r.isConsideredValid today d = true → today ≤ r.consideredToExpireAt today d) ↔ r.LastIsValid today d := by
  rw [hexpiry, hvalid]
  simp only [EligibilityDiagnosis.isValid, Approval.isValid, Bool.or_eq_true, List.any_eq_true, decide_eq_true_eq,
    Registry.LastIsValid]
  cases hset : (r.approvalSet d).head? with
  | none =>
      have hnil : r.approvalSet d = [] := List.head?_eq_none_iff.mp hset
      simp only [hnil, Registry.expiresWith]
      simpa using le_of_lt
  | some last =>
      simp only [Registry.expiresWith, Approval.isValid, decide_eq_true_eq, Option.mem_some_iff, exists_eq_left']
      by_cases hlast : today ≤ last.endAt
      · simp [hlast]
      · rw [if_neg hlast]
        simp only [hlast, or_false]
        exact ⟨fun h hex => h (Or.inr hex), fun h hor => hor.elim le_of_lt h⟩

theorem expiresWith_le_of_not_valid (hvalid : r.isConsideredValid today d =
      (d.isValid today || (r.approvalSet d).any fun a => a.isValid today))
    (h : r.isConsideredValid today d = false) :
    Registry.expiresWith today d (r.approvalSet d).head? ≤ today := by
  rw [hvalid] at h
  simp only [EligibilityDiagnosis.isValid, Approval.isValid, Bool.or_eq_false_iff, List.any_eq_false,
    decide_eq_false_iff_not, decide_eq_true_eq, not_lt, not_le] at h
  cases hset : (r.approvalSet d).head? with
  | none => exact h.1
  | some last =>
      have hlast := h.2 last (List.mem_of_head? hset)
      simp only [Registry.expiresWith, Approval.isValid, decide_eq_true_eq, if_neg hlast.not_ge]
      exact h.1

end Places

end Itou.Eligibility
