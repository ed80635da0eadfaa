import Itou.Approvals.Lemmas.Hiring
import Itou.JobApplications.Lemmas.Accept

/-!
# The hiring date and the approval

An acceptance checks the hiring date against the approval before it ends the suspension in progress, which
moves the end date back. These lemmas follow the dates of the approval through the body.

What an acceptance can do to the approvals, and the dates that the one it issues has afterwards.
-/

namespace Itou.JobApplications

open Itou.Lib
open Itou.Approvals (Approval Db)

namespace JobApplication

variable {ctx : AcceptContext} {r r' : JobApplication} {hiringStartAt : Int}

/-! ## The issuance -/

/-- The approval that is issued, before a suspension is ended: it contains the hiring date. -/
structure Issued (ctx : AcceptContext) (r r' : JobApplication) (db : Db) (hiringStartAt : Int) : Prop where
  approval : r'.approval = some (ctx.approvalUsed r.jobSeeker hiringStartAt).1
  suspensions : db.suspensions = ctx.db.suspensions
  row : ∃ a, db.approvals.lookup (ctx.approvalUsed r.jobSeeker hiringStartAt).1 = some a ∧
    a.startAt ≤ hiringStartAt ∧ hiringStartAt ≤ a.endAt ∧
    a.endAt = (ctx.approvalUsed r.jobSeeker hiringStartAt).2

theorem le_defaultEndDate (startAt : Int) : startAt ≤ Approval.defaultEndDate startAt := by
  simp only [Approval.defaultEndDate, Approval.defaultApprovalDays]
  omega

theorem reuseApproval_issued {id : Nat} {a : Approval} {db : Db}
    (htoday : ctx.today ≤ hiringStartAt) (hlatest : ctx.latestApproval r.jobSeeker = some (id, a))
    (hvalid : a.isValid ctx.today = true)
    (h : r.reuseApproval ctx hiringStartAt id a = .ok (r', db)) : Issued ctx r r' db hiringStartAt := by
  have hused : ctx.approvalUsed r.jobSeeker hiringStartAt =
      (id, if hiringStartAt < a.startAt then Approval.defaultEndDate hiringStartAt else a.endAt) := by
    simp only [AcceptContext.approvalUsed, hlatest, hvalid, ↓reduceIte]
  have hrow : ctx.db.approvals.lookup id = some a := Approvals.lookup_of_latestApproval hlatest
  unfold reuseApproval at h
  split at h
  · cases h
  · rename_i hend
    cases h
    by_cases hstart : hiringStartAt < a.startAt
    · have hfuture : ctx.now.date < a.startAt := lt_of_le_of_lt htoday hstart
      refine ⟨by rw [hused], by simp [hstart, Db.updateStartDate, hfuture], ?_⟩
      rw [hused]
      simp only [hstart, ↓reduceIte, Db.updateStartDate, hfuture, AList.lookup_insert]
      exact ⟨_, rfl, le_rfl, le_defaultEndDate _, rfl⟩
    · refine ⟨by rw [hused], by simp [hstart], ?_⟩
      rw [hused]
      simp only [hstart, ↓reduceIte]
      exact ⟨a, hrow, not_lt.mp hstart, not_lt.mp hend, rfl⟩

theorem createApproval_issued {db : Db} (happroval : r.approval = none) (hissued : r'.approval ≠ none)
    (hused : ctx.approvalUsed r.jobSeeker hiringStartAt =
      (ctx.nextPk, Approval.defaultEndDate hiringStartAt))
    (h : r.createApproval ctx hiringStartAt = .ok (r', db)) : Issued ctx r r' db hiringStartAt := by
  unfold createApproval at h
  split at h
  · split at h
    · cases h
    · split at h
      · cases h
      · cases h
        refine ⟨by rw [hused], rfl, ?_⟩
        rw [hused]
        exact ⟨_, AList.lookup_insert _, le_rfl, le_defaultEndDate _, rfl⟩
  · cases h
    exact absurd happroval hissued

theorem issueApproval_issued {db : Db} (hiae : r.toCompany.isSubjectToIaeRules = true)
    (htoday : ctx.today ≤ hiringStartAt) (happroval : r.approval = none) (hissued : r'.approval ≠ none)
    (h : r.issueApproval ctx hiringStartAt = .ok (r', db)) : Issued ctx r r' db hiringStartAt := by
  unfold issueApproval at h
  rw [if_pos hiae] at h
  cases hlatest : ctx.latestApproval r.jobSeeker with
  | none =>
      simp only [hlatest] at h
      exact createApproval_issued happroval hissued (by simp only [AcceptContext.approvalUsed, hlatest]) h
  | some e =>
      obtain ⟨id, a⟩ := e
      simp only [hlatest] at h
      split at h
      · rename_i hvalid
        exact reuseApproval_issued htoday hlatest hvalid h
      · rename_i hvalid
        split at h
        · cases h
        · refine createApproval_issued happroval hissued ?_ h
          simp only [AcceptContext.approvalUsed, hlatest]
          rw [if_neg hvalid]

/-! ## The end of the suspension -/

theorem suspensionToEnd_congr {db db' : Db} (h : db'.suspensions = db.suspensions) (today : Int) (id : Nat) :
    db'.suspensionToEnd today id = db.suspensionToEnd today id := by
  simp only [Db.suspensionToEnd, Db.lastInProgressSuspension, h]

theorem deliverApproval_approval {db db' : Db} (h : r.deliverApproval ctx hiringStartAt db = .ok (r', db')) :
    r'.approval = r.approval := by
  unfold deliverApproval at h
  split at h
  · cases h; rfl
  · split at h
    · cases h
    · cases h; rfl

theorem deliverApproval_iff {db db' : Db} {r'' : JobApplication} (hissued : Issued ctx r r' db hiringStartAt)
    (h : r'.deliverApproval ctx hiringStartAt db = .ok (r'', db')) :
    StartsInApproval db' (ctx.approvalUsed r.jobSeeker hiringStartAt).1 hiringStartAt ↔
      ctx.SuspensionEndsBefore r.jobSeeker hiringStartAt := by
  obtain ⟨happroval, hsuspensions, a, hrow, hstart, hend, hused⟩ := hissued
  simp only [deliverApproval, happroval] at h
  split at h
  · cases h
  · rename_i hunsuspend
    cases h
    obtain ⟨a', hrow', hstart', hend'⟩ := Approvals.unsuspend_row hunsuspend hrow
    rw [suspensionToEnd_congr hsuspensions] at hend'
    have hiff : StartsInApproval db' (ctx.approvalUsed r.jobSeeker hiringStartAt).1 hiringStartAt ↔
        hiringStartAt ≤ a'.endAt := by
      constructor
      · rintro ⟨b, hb, _, hle⟩
        rw [hrow'] at hb
        cases hb
        exact hle
      · exact fun hle => ⟨a', hrow', hstart' ▸ hstart, hle⟩
    rw [hiff, hend', AcceptContext.SuspensionEndsBefore, ← hused]
    cases hsuspension : ctx.db.suspensionToEnd ctx.now.date (ctx.approvalUsed r.jobSeeker hiringStartAt).1 with
    | none => simp [AcceptContext.today, hsuspension, hend]
    | some e =>
        obtain ⟨k, s⟩ := e
        simp only [AcceptContext.today, hsuspension, Option.mem_def, Option.some.injEq, forall_eq']
        split <;> omega

/-! ## The transition -/

theorem beforeTransition_hiringStartAt (now : DateTime) (t : Transition) (r : JobApplication) :
    (r.beforeTransition now t).hiringStartAt = r.hiringStartAt := by
  cases t <;> rfl

/-- The body issues an approval on a row that differs in its diagnoses only, then delivers it. -/
theorem acceptBody_issued {db : Db} (hiae : r.toCompany.isSubjectToIaeRules = true)
    (htoday : ctx.today ≤ hiringStartAt) (hstart : r.hiringStartAt = some hiringStartAt)
    (happroval : r.approval = none) (hissued : r'.approval ≠ none)
    (h : r.acceptBody ctx = .ok (r', db)) :
    ∃ r₁ r₂ db₁, r₁.jobSeeker = r.jobSeeker ∧ Issued ctx r₁ r₂ db₁ hiringStartAt ∧
      r₂.deliverApproval ctx hiringStartAt db₁ = .ok (r', db) := by
  simp only [acceptBody, hstart] at h
  obtain ⟨r₁, hlink, h⟩ := bind_eq_ok.mp h
  obtain ⟨⟨r₂, db₁⟩, hissue, hdeliver⟩ := bind_eq_ok.mp h
  obtain ⟨⟨d, rfl⟩, _⟩ := linkEligibilityDiagnosis_ok hlink
  have hgeiq : r.toCompany.kind ≠ .geiq := fun hkind => by
    rw [Company.not_isSubjectToIaeRules_of_geiq hkind] at hiae
    cases hiae
  simp only [linkGeiqEligibilityDiagnosis, hgeiq, ↓reduceIte] at hissue
  have hissued₂ : r₂.approval ≠ none := deliverApproval_approval hdeliver ▸ hissued
  exact ⟨{ r with eligibilityDiagnosis := d }, r₂, db₁, rfl,
    issueApproval_issued (r := { r with eligibilityDiagnosis := d }) hiae htoday happroval hissued₂ hissue,
    hdeliver⟩

end JobApplication

/-! ## The approval that an acceptance issues -/

universe u

namespace JobApplication

/-! ## Transitions -/

theorem save_coherent {now : DateTime} {r r' : JobApplication} (h : r.save now = .ok r') : r'.Coherent := by
  unfold save at h
  split at h
  · cases h
  · rename_i hnone
    cases h
    exact (violation_eq_none_iff _).mp hnone

theorem perform_coherent {α : Type u} {now : DateTime} {t : Transition} {r r' : JobApplication} {a : α}
    {body : JobApplication → Except TransitionError (JobApplication × α)}
    (h : perform now t body r = .ok (r', a)) : r'.Coherent := by
  unfold perform at h
  split at h
  · split at h
    · cases h
    · split at h
      · cases h
      · rename_i hsave
        cases h
        exact save_coherent hsave
  · cases h

end JobApplication

open JobApplication

/-! ## The issuance -/

/-- The approval that an acceptance issues, with the tables before it ends a suspension. -/
inductive Issuance (ctx : AcceptContext) (iae : Bool) (jobSeeker : User) (hiringStartAt : Int) :
    Option Nat → Db → Prop
  | unlinked (hnone : iae = true → ∀ e ∈ ctx.latestApproval jobSeeker, e.2.isValid ctx.today = false) :
      Issuance ctx iae jobSeeker hiringStartAt none ctx.db
  | reused {id : Nat} {a : Approval} (hiae : iae = true)
      (hlatest : ctx.latestApproval jobSeeker = some (id, a)) (hvalid : a.isValid ctx.today = true)
      (hend : hiringStartAt ≤ a.endAt) :
      Issuance ctx iae jobSeeker hiringStartAt (some id)
        (if hiringStartAt < a.startAt then ctx.db.updateStartDate ctx.now id a hiringStartAt else ctx.db)
  | created {a : Approval}
      (hnone : ∀ e ∈ ctx.latestApproval jobSeeker, e.2.isValid ctx.today = false)
      (hstart : a.startAt = hiringStartAt) (hend : a.endAt = Approval.defaultEndDate hiringStartAt) :
      Issuance ctx iae jobSeeker hiringStartAt (some ctx.nextPk)
        { ctx.db with approvals := ctx.db.approvals.insert ctx.nextPk a }

variable {ctx : AcceptContext} {r r' : JobApplication} {hiringStartAt : Int} {db db' : Db}

theorem createApproval_issuance {iae : Bool} (happroval : r.approval = none)
    (hnone : ∀ e ∈ ctx.latestApproval r.jobSeeker, e.2.isValid ctx.today = false)
    (h : r.createApproval ctx hiringStartAt = .ok (r', db)) :
    Issuance ctx iae r.jobSeeker hiringStartAt r'.approval db := by
  unfold createApproval at h
  split at h
  · split at h
    · cases h
    · split at h
      · cases h
      · cases h
        exact .created hnone rfl rfl
  · cases h
    simp only [happroval]
    exact .unlinked fun _ => hnone

theorem issueApproval_issuance (happroval : r.approval = none)
    (h : r.issueApproval ctx hiringStartAt = .ok (r', db)) :
    Issuance ctx r.toCompany.isSubjectToIaeRules r.jobSeeker hiringStartAt r'.approval db := by
  unfold issueApproval at h
  split at h
  · rename_i hiae
    split at h
    · rename_i id a hlatest
      split at h
      · rename_i hvalid
        unfold reuseApproval at h
        split at h
        · cases h
        · rename_i hend
          cases h
          exact .reused hiae hlatest hvalid (not_lt.mp hend)
      · rename_i hvalid
        have hnone : ∀ e ∈ ctx.latestApproval r.jobSeeker, e.2.isValid ctx.today = false := by
          rw [hlatest]
          rintro e ⟨⟩
          exact Bool.not_eq_true _ ▸ hvalid
        split at h
        · cases h
        · exact createApproval_issuance happroval hnone h
    · rename_i hlatest
      have hnone : ∀ e ∈ ctx.latestApproval r.jobSeeker, e.2.isValid ctx.today = false := by
        rw [hlatest]
        rintro e ⟨⟩
      exact createApproval_issuance happroval hnone h
  · rename_i hiae
    cases h
    rw [happroval]
    exact .unlinked fun h => absurd h hiae

/-- The end of the suspension of the approval that is issued, if one is. -/
def Delivered (now : DateTime) (hiringStartAt : Int) (db db' : Db) : Option Nat → Prop
  | none => db' = db
  | some id => db.unsuspend now id hiringStartAt = some db'

/-- What the transition does. -/
structure AcceptOutcome (ctx : AcceptContext) (r r' : JobApplication) (db' : Db) : Prop where
  source : r.state ≠ .accepted
  pk : r'.pk = r.pk
  state : r'.state = .accepted
  coherent : r'.Coherent
  hiring : ∃ hiringStartAt, r.hiringStartAt = some hiringStartAt ∧ r'.hiringStartAt = some hiringStartAt ∧
    ∃ db, Issuance ctx r.toCompany.isSubjectToIaeRules r.jobSeeker hiringStartAt r'.approval db ∧
      Delivered ctx.now hiringStartAt db db' r'.approval

theorem deliverApproval_delivered (h : r.deliverApproval ctx hiringStartAt db = .ok (r', db')) :
    Delivered ctx.now hiringStartAt db db' r'.approval := by
  rw [deliverApproval_approval h]
  unfold deliverApproval at h
  split at h
  · rename_i hnone
    cases h
    rw [hnone]
    rfl
  · rename_i id hid
    rw [hid]
    split at h
    · cases h
    · rename_i hunsuspend
      cases h
      exact hunsuspend

/-- The diagnoses are linked before the issuance. -/
theorem linked_fields (h : r.linkEligibilityDiagnosis ctx = .ok r') :
    ∃ fields, r'.linkGeiqEligibilityDiagnosis ctx = { r with toAcceptedOnlyFields := fields } ∧
      fields.approval = r.approval := by
  obtain ⟨⟨d, rfl⟩, _⟩ := linkEligibilityDiagnosis_ok h
  unfold linkGeiqEligibilityDiagnosis
  split
  · exact ⟨_, rfl, rfl⟩
  · exact ⟨_, rfl, rfl⟩

theorem acceptBody_issuance (happroval : r.approval = none) (h : r.acceptBody ctx = .ok (r', db')) :
    (∃ fields, r' = { r with toAcceptedOnlyFields := fields }) ∧
      ∃ hiringStartAt, r.hiringStartAt = some hiringStartAt ∧
        ∃ db, Issuance ctx r.toCompany.isSubjectToIaeRules r.jobSeeker hiringStartAt r'.approval db ∧
          Delivered ctx.now hiringStartAt db db' r'.approval := by
  unfold acceptBody at h
  split at h
  · cases h
  · rename_i hiringStartAt hstart
    obtain ⟨r₁, hlink, h⟩ := bind_eq_ok.mp h
    obtain ⟨⟨r₂, db⟩, hissue, hdeliver⟩ := bind_eq_ok.mp h
    obtain ⟨fields, hlinked, hnone⟩ := linked_fields hlink
    simp only [hlinked] at hissue
    change r₂.deliverApproval ctx hiringStartAt db = .ok (r', db') at hdeliver
    have hissuance := issueApproval_issuance (r := { r with toAcceptedOnlyFields := fields })
      (hnone.trans happroval) hissue
    rw [← deliverApproval_approval hdeliver] at hissuance
    obtain ⟨fields', hfields⟩ := ((issueApproval_ok hissue).trans (deliverApproval_ok hdeliver)).fields
    exact ⟨⟨fields', hfields⟩, hiringStartAt, hstart, db, hissuance, deliverApproval_delivered hdeliver⟩

theorem accept_outcome (happroval : r.approval = none) (h : r.accept ctx = .ok (r', db')) :
    AcceptOutcome ctx r r' db' := by
  have hcoherent := perform_coherent h
  obtain ⟨hsource, r₁, hbody, rfl⟩ := perform_ok h
  have hnone : (r.beforeTransition ctx.now .accept).approval = none :=
    (congrArg AcceptedOnlyFields.approval
      (beforeTransition_toAcceptedOnlyFields ctx.now .accept r)).trans happroval
  obtain ⟨⟨fields, rfl⟩, hiringStartAt, hstart, db, hissuance, hdelivered⟩ := acceptBody_issuance hnone hbody
  exact ⟨fun heq => absurd (heq ▸ hsource) (by decide), rfl, rfl, hcoherent, hiringStartAt, hstart, hstart,
    db, hissuance, hdelivered⟩

/-! ## The dates afterwards -/

theorem suspensionEndsBefore_iff {ctx : AcceptContext} {jobSeeker : User} {hiringStartAt : Int}
    (hend : hiringStartAt ≤ (ctx.approvalUsed jobSeeker hiringStartAt).2) :
    ctx.SuspensionEndsBefore jobSeeker hiringStartAt ↔
      hiringStartAt + unusedDays ctx.db ctx.today (ctx.approvalUsed jobSeeker hiringStartAt).1 hiringStartAt ≤
        (ctx.approvalUsed jobSeeker hiringStartAt).2 := by
  simp only [AcceptContext.SuspensionEndsBefore, unusedDays]
  cases ctx.db.suspensionToEnd ctx.today (ctx.approvalUsed jobSeeker hiringStartAt).1 with
  | none => simpa using hend
  | some e =>
      simp only [Option.mem_def, Option.some.injEq, forall_eq']
      split <;> omega

/-- What a delivery does to the approvals: the one that is delivered loses the unused days. -/
structure DeliveredDates (ctx : AcceptContext) (id : Nat) (hiringStartAt startAt endAt : Int) (db' : Db) :
    Prop where
  row : ∃ a, db'.approvals.lookup id = some a ∧ a.startAt = startAt ∧
    a.endAt = endAt - unusedDays ctx.db ctx.today id hiringStartAt
  others : ∀ j, j ≠ id → db'.approvals.lookup j = ctx.db.approvals.lookup j
  foreignKeys : db'.ForeignKeys

theorem delivered_dates {id : Nat} {a : Approval} (h : Delivered ctx.now hiringStartAt db db' (some id))
    (hfk : db.ForeignKeys) (hsuspensions : db.suspensions = ctx.db.suspensions)
    (ha : db.approvals.lookup id = some a)
    (hothers : ∀ j, j ≠ id → db.approvals.lookup j = ctx.db.approvals.lookup j) :
    DeliveredDates ctx id hiringStartAt a.startAt a.endAt db' := by
  obtain ⟨a', hrow, hstart, hend⟩ := Approvals.unsuspend_row h ha
  rw [suspensionToEnd_congr hsuspensions] at hend
  refine ⟨⟨a', hrow, hstart, ?_⟩, fun j hj => (Approvals.unsuspend_lookup_ne h hj).trans (hothers j hj),
    hfk.unsuspend h⟩
  rw [hend, unusedDays, AcceptContext.today]
  cases ctx.db.suspensionToEnd ctx.now.date id with
  | none => simp
  | some e => dsimp only; split <;> rfl

theorem startsInApproval_iff {id : Nat} {startAt endAt hiring : Int}
    (h : DeliveredDates ctx id hiringStartAt startAt endAt db') :
    StartsInApproval db' id hiring ↔
      startAt ≤ hiring ∧ hiring + unusedDays ctx.db ctx.today id hiringStartAt ≤ endAt := by
  obtain ⟨a, hrow, hstart, hend⟩ := h.row
  simp only [StartsInApproval, hrow, Option.mem_def, Option.some.injEq, exists_eq_left', hstart, hend]
  omega

/-- The key of a new row is not taken. -/
theorem nextPk_notMem (ctx : AcceptContext) : ctx.nextPk ∉ ctx.db.approvals := by
  intro hmem
  have hle : ∀ (l : List Nat) (k : Nat), k ∈ l → k ≤ l.foldr max 0 := by
    intro l k hk
    induction l with
    | nil => cases hk
    | cons x l ih =>
        rcases List.mem_cons.mp hk with rfl | hk
        · exact le_max_left _ _
        · exact (ih hk).trans (le_max_right _ _)
  exact absurd (hle _ _ (AList.mem_keys.mp hmem)) (Nat.not_succ_le_self _)

/-- No suspension refers to the key of a new row. -/
theorem suspensionToEnd_nextPk (hfk : ctx.db.ForeignKeys) (today : Int) :
    ctx.db.suspensionToEnd today ctx.nextPk = none := by
  refine Option.eq_none_iff_forall_ne_some.mpr fun e he => ?_
  obtain ⟨hrow, hid⟩ := Approvals.lookup_of_suspensionToEnd he
  exact nextPk_notMem ctx (hid ▸ hfk.suspension e.2 (Table.mem_rows.mpr ⟨e.1, hrow⟩))

/-- The dates of an approval that is reused: it starts on the hiring date when that is before its own start,
which has to be in the future. -/
theorem reused_dates {id : Nat} {a : Approval} (hfk : ctx.db.ForeignKeys)
    (ha : ctx.db.approvals.lookup id = some a)
    (h : Delivered ctx.now hiringStartAt
      (if hiringStartAt < a.startAt then ctx.db.updateStartDate ctx.now id a hiringStartAt else ctx.db) db'
      (some id)) :
    if hiringStartAt < a.startAt ∧ ctx.today < a.startAt then
      DeliveredDates ctx id hiringStartAt hiringStartAt (Approval.defaultEndDate hiringStartAt) db'
    else DeliveredDates ctx id hiringStartAt a.startAt a.endAt db' := by
  by_cases hmoved : hiringStartAt < a.startAt ∧ ctx.today < a.startAt
  · rw [if_pos hmoved]
    simp only [hmoved.1, if_true] at h
    have hupdate := hmoved.2
    rw [AcceptContext.today] at hupdate
    simp only [Db.updateStartDate, hupdate, if_true] at h
    refine delivered_dates h ?_ rfl (AList.lookup_insert _) fun j hj => AList.lookup_insert_ne hj
    exact hfk.mono fun j hj => (AList.mem_insert _).mpr (Or.inr hj)
  · rw [if_neg hmoved]
    have hsame : (if hiringStartAt < a.startAt then ctx.db.updateStartDate ctx.now id a hiringStartAt else ctx.db) =
        ctx.db := by
      split
      · rename_i hlt
        have hnot : ¬ ctx.now.date < a.startAt := fun htoday => hmoved ⟨hlt, htoday⟩
        rw [Db.updateStartDate, if_neg hnot]
      · rfl
    rw [hsame] at h
    exact delivered_dates h hfk rfl ha fun _ _ => rfl

/-- A new approval starts on the hiring date. -/
theorem created_dates {a : Approval} (hfk : ctx.db.ForeignKeys)
    (h : Delivered ctx.now hiringStartAt
      { ctx.db with approvals := ctx.db.approvals.insert ctx.nextPk a } db' (some ctx.nextPk)) :
    DeliveredDates ctx ctx.nextPk hiringStartAt a.startAt a.endAt db' := by
  refine delivered_dates h ?_ rfl (AList.lookup_insert _) fun j hj => AList.lookup_insert_ne hj
  exact hfk.mono fun j hj => (AList.mem_insert _).mpr (Or.inr hj)

end Itou.JobApplications
