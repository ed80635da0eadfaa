import Itou.JobApplications.Contracts
import Itou.JobApplications.Lemmas.HiringDate

/-!
# What one step does to the contracts

The law that contracts start inside their approvals, and the condition under which each step keeps it.
-/

namespace Itou.JobApplications

open Itou.Lib
open Itou.Approvals (Approval Db)
open JobApplication

namespace Contracts

variable {s s' : Contracts} {pk : Nat}

/-! ## The law -/

theorem mem_otherHirings {id : Nat} {hiring : Int} : hiring ∈ s.otherHirings pk id ↔
    ∃ r ∈ s.jobApplications, r.pk ≠ pk ∧ r.state = .accepted ∧ r.approval = some id ∧
      r.hiringStartAt = some hiring := by
  simp only [otherHirings, List.mem_filterMap, List.mem_filter, Bool.and_eq_true, decide_eq_true_eq, ne_eq,
    decide_not, Bool.not_eq_true', decide_eq_false_iff_not, and_assoc]

/-- The other contracts are inside. -/
theorem Inside.otherHirings {id : Nat} {hiring : Int} (hs : s.Inside) (h : hiring ∈ s.otherHirings pk id) :
    StartsInApproval s.db id hiring := by
  obtain ⟨r, hr, _, hstate, happroval, hhiring⟩ := mem_otherHirings.mp h
  obtain ⟨hiring', hmem, hinside⟩ := hs r hr hstate id happroval
  rw [hhiring] at hmem
  cases hmem
  exact hinside

theorem get_eq_some {r : JobApplication} (h : s.get pk = some r) : r ∈ s.jobApplications ∧ r.pk = pk :=
  ⟨List.mem_of_find?_eq_some h, by simpa using List.find?_some h⟩

/-- Two rows with one key are the same. -/
theorem WellFormed.eq_of_pk (hs : s.WellFormed) {r r' : JobApplication} (hr : r ∈ s.jobApplications)
    (hr' : r' ∈ s.jobApplications) (h : r.pk = r'.pk) : r = r' :=
  List.inj_on_of_nodup_map hs.distinct hr hr' h

/-- An application that is not accepted has no approval. -/
theorem WellFormed.approval (hs : s.WellFormed) {r : JobApplication} (hr : r ∈ s.jobApplications)
    (hstate : r.state ≠ .accepted) : r.approval = none :=
  congrArg AcceptedOnlyFields.approval ((hs.coherent r hr).acceptedOnlyFields_eq hstate)

/-! ## The rows that a step writes -/

/-- `s'` has `r'` in the place of the application `pk`, and the other accepted applications of `s`. -/
structure Replaces (s s' : Contracts) (pk : Nat) (r' : JobApplication) : Prop where
  mem : r' ∈ s'.jobApplications
  of_mem : ∀ x ∈ s'.jobApplications, x.state = .accepted → x = r' ∨ x ∈ s.jobApplications ∧ x.pk ≠ pk
  mem_of : ∀ x ∈ s.jobApplications, x.state = .accepted → x.pk ≠ pk → x ∈ s'.jobApplications

theorem save_replaces {r r' : JobApplication} {rows : List JobApplication} {db : Db} (hr : s.get pk = some r)
    (hof : ∀ x ∈ rows, x.state = .accepted → x ∈ s.jobApplications)
    (hmem : ∀ x ∈ s.jobApplications, x.state = .accepted ∨ x.pk = pk → x ∈ rows) :
    Replaces s { s with db, jobApplications := save { s with jobApplications := rows } pk r' } pk r' where
  mem := by
    obtain ⟨hmem', hpk⟩ := get_eq_some hr
    exact List.mem_map.mpr ⟨r, hmem r hmem' (Or.inr hpk), if_pos hpk⟩
  of_mem := by
    intro x hx hstate
    obtain ⟨y, hy, rfl⟩ := List.mem_map.mp hx
    by_cases hpk : y.pk = pk
    · exact Or.inl (if_pos hpk)
    · simp only [hpk, if_false] at hstate ⊢
      exact Or.inr ⟨hof y hy hstate, hpk⟩
  mem_of := by
    intro x hx hstate hpk
    exact List.mem_map.mpr ⟨x, hmem x hx (Or.inl hstate), if_neg hpk⟩

/-- When the step leaves the other approvals, the law holds afterwards exactly when the contracts of this one are
inside it. -/
theorem inside_iff_of_linked {r' : JobApplication} {id : Nat} {hiring : Int} (h : Replaces s s' pk r')
    (hs : s.Inside) (hstate : r'.state = .accepted) (happroval : r'.approval = some id)
    (hhiring : r'.hiringStartAt = some hiring)
    (hothers : ∀ j, j ≠ id → s'.db.approvals.lookup j = s.db.approvals.lookup j) :
    s'.Inside ↔ StartsInApproval s'.db id hiring ∧
      ∀ o ∈ s.otherHirings pk id, StartsInApproval s'.db id o := by
  constructor
  · intro hs'
    constructor
    · obtain ⟨_, hmem, hinside⟩ := hs' r' h.mem hstate id happroval
      rw [hhiring] at hmem
      cases hmem
      exact hinside
    · intro o ho
      obtain ⟨x, hx, hpk, hxstate, hxapproval, hxhiring⟩ := mem_otherHirings.mp ho
      obtain ⟨_, hmem, hinside⟩ := hs' x (h.mem_of x hx hxstate hpk) hxstate id hxapproval
      rw [hxhiring] at hmem
      cases hmem
      exact hinside
  · rintro ⟨hthis, hother⟩ x hx hxstate j hj
    rcases h.of_mem x hx hxstate with rfl | ⟨hx, hpk⟩
    · rw [happroval] at hj
      cases hj
      exact ⟨hiring, hhiring, hthis⟩
    · obtain ⟨o, ho, hinside⟩ := hs x hx hxstate j hj
      refine ⟨o, ho, ?_⟩
      by_cases hid : j = id
      · subst hid
        exact hother o (mem_otherHirings.mpr ⟨x, hx, hpk, hxstate, hj, ho⟩)
      · rwa [StartsInApproval, hothers j hid]

/-- When the application that is written has no approval, and the approvals of the others are left, the law goes
on holding. -/
theorem inside_of_unlinked {r' : JobApplication} (h : Replaces s s' pk r') (hs : s.Inside)
    (hr' : r'.state ≠ .accepted ∨ r'.approval = none)
    (hothers : ∀ x ∈ s.jobApplications, x.pk ≠ pk → x.state = .accepted → ∀ id ∈ x.approval,
      s'.db.approvals.lookup id = s.db.approvals.lookup id) : s'.Inside := by
  intro x hx hxstate id hid
  rcases h.of_mem x hx hxstate with rfl | ⟨hx, hpk⟩
  · rcases hr' with hr' | hr'
    · exact absurd hxstate hr'
    · rw [hr'] at hid
      cases hid
  · obtain ⟨o, ho, hinside⟩ := hs x hx hxstate id hid
    exact ⟨o, ho, by rwa [StartsInApproval, hothers x hx hpk hxstate id hid]⟩

theorem save_wellFormed {r' : JobApplication} {rows : List JobApplication} {db : Db} (hs : s.WellFormed)
    (hcoherent : ∀ x ∈ rows, x.Coherent) (hpks : rows.map JobApplication.pk = s.jobApplications.map JobApplication.pk)
    (hr' : r'.Coherent) (hpk : r'.pk = pk) (hdb : db.ForeignKeys) :
    WellFormed { s with db, jobApplications := save { s with jobApplications := rows } pk r' } where
  coherent := by
    intro x hx
    obtain ⟨y, hy, rfl⟩ := List.mem_map.mp hx
    split
    · exact hr'
    · exact hcoherent y hy
  foreignKeys := hdb
  distinct := by
    have hsame : (save { s with jobApplications := rows } pk r').map JobApplication.pk =
        rows.map JobApplication.pk := by
      rw [save, List.map_map]
      refine List.map_congr_left fun y _ => ?_
      simp only [Function.comp_apply]
      split
      · rename_i hy
        exact hpk.trans hy.symm
      · rfl
    rw [hsame, hpks]
    exact hs.distinct

/-! ## An acceptance -/

/-- What the values of an acceptance do to the application. -/
structure Filled (values : AcceptValues) (r filled : JobApplication) : Prop where
  pk : filled.pk = r.pk
  state : filled.state = r.state
  approval : filled.approval = r.approval
  jobSeeker : filled.jobSeeker = r.jobSeeker
  toCompany : filled.toCompany = r.toCompany
  hiringStartAt : filled.hiringStartAt = values.hiringStartAt

theorem fill_filled {ctx : AcceptContext} {values : AcceptValues} {r filled : JobApplication}
    (h : values.fill ctx r = .ok filled) : Filled values r filled := by
  cases values with
  | admin hiringStartAt hiringEndAt eligibilityDiagnosis =>
      cases h
      exact ⟨rfl, rfl, rfl, rfl, rfl, rfl⟩
  | employer form farFuture =>
      unfold AcceptValues.fill fillAcceptForm at h
      dsimp only at h
      split at h
      · cases h
      · rename_i hsave
        cases h
        obtain ⟨rfl, _⟩ := AcceptForm_save_ok hsave
        unfold AcceptForm.fill
        split
        · exact ⟨rfl, rfl, rfl, rfl, rfl, rfl⟩
        · exact ⟨rfl, rfl, rfl, rfl, rfl, rfl⟩

theorem renderObsolete_ok {now : DateTime} {jobSeeker : User} {x y : JobApplication}
    (h : renderObsolete now pk jobSeeker x = .ok y) :
    y.pk = x.pk ∧ (x.Coherent → y.Coherent) ∧ (y.state = .accepted → y = x) ∧
      (x.state = .accepted ∨ x.pk = pk → y = x) := by
  unfold renderObsolete at h
  split at h
  · rename_i hcond
    simp only [Bool.and_eq_true, decide_eq_true_eq, ne_eq] at hcond
    obtain ⟨⟨hpk, _⟩, hpending⟩ := hcond
    obtain ⟨⟨y', u⟩, hperform, rfl⟩ := map_eq_ok.mp h
    obtain ⟨_, r₁, hbody, hy⟩ := perform_ok hperform
    have hsame : y'.pk = x.pk := by
      cases hbody
      rw [hy]
      rfl
    have hobsolete : y'.state = .obsolete := by
      rw [hy]
      rfl
    refine ⟨hsame, fun _ => perform_coherent hperform, fun haccepted => ?_, ?_⟩
    · rw [hobsolete] at haccepted
      cases haccepted
    rintro (hstate | hpk')
    · rw [hstate] at hpending
      exact absurd hpending (by decide)
    · exact absurd hpk' hpk
  · cases h
    exact ⟨rfl, fun hx => hx, fun _ => rfl, fun _ => rfl⟩

/-- The other applications during an acceptance. -/
theorem others_of_mapM {now : DateTime} {jobSeeker : User} {rows : List JobApplication}
    (h : s.jobApplications.mapM (renderObsolete now pk jobSeeker) = .ok rows) :
    (∀ x ∈ rows, x.state = .accepted → x ∈ s.jobApplications) ∧
      (∀ x ∈ s.jobApplications, x.state = .accepted ∨ x.pk = pk → x ∈ rows) ∧
      ((∀ x ∈ s.jobApplications, x.Coherent) → ∀ x ∈ rows, x.Coherent) ∧
      rows.map JobApplication.pk = s.jobApplications.map JobApplication.pk := by
  refine ⟨fun y hy hstate => ?_, fun x hx hkept => ?_, fun hcoherent y hy => ?_, ?_⟩
  · obtain ⟨x, hx, hok⟩ := exists_of_mem_mapM h hy
    rw [(renderObsolete_ok hok).2.2.1 hstate]
    exact hx
  · obtain ⟨i, hi⟩ := List.mem_iff_getElem?.mp hx
    obtain ⟨y, hy, hok⟩ := getElem?_of_mapM_eq_ok h hi
    rw [← (renderObsolete_ok hok).2.2.2 hkept]
    exact List.mem_of_getElem? hy
  · obtain ⟨x, hx, hok⟩ := exists_of_mem_mapM h hy
    exact (renderObsolete_ok hok).2.1 (hcoherent x hx)
  · exact map_eq_of_mapM h fun _ _ hok => (renderObsolete_ok hok).1

/-- What a successful acceptance consists of. -/
theorem accept_eq_some {ctx : AcceptContext} {values : AcceptValues} (h : s.accept pk ctx values = some s') :
    ∃ r filled r' db others, s.get pk = some r ∧ Filled values r filled ∧
      filled.accept (s.context ctx) = .ok (r', db) ∧
      s.jobApplications.mapM (renderObsolete s.now pk r.jobSeeker) = .ok others ∧
      s' = { s with db, jobApplications := save { s with jobApplications := others } pk r' } := by
  simp only [accept, Option.bind_eq_bind, Option.bind_eq_some_iff, Prod.exists, Option.pure_def,
    Option.some.injEq, toOption_eq_some] at h
  obtain ⟨r, hr, filled, hfill, r', db, haccept, others, hothers, rfl⟩ := h
  exact ⟨r, filled, r', db, others, hr, fill_filled hfill, haccept, hothers, rfl⟩

/-- The law after an acceptance whose approval is new. -/
theorem inside_of_created {ctx : AcceptContext} {r' : JobApplication} {hiring : Int} (hw : s.WellFormed)
    (hs : s.Inside) (hdb : ctx.db = s.db) (hreplaces : Replaces s s' pk r') (hstate : r'.state = .accepted)
    (happroval : r'.approval = some ctx.nextPk) (hhiring : r'.hiringStartAt = some hiring)
    (hdates : DeliveredDates ctx ctx.nextPk hiring hiring (Approval.defaultEndDate hiring) s'.db) : s'.Inside := by
  have hfk : ctx.db.ForeignKeys := hdb ▸ hw.foreignKeys
  rw [inside_iff_of_linked hreplaces hs hstate happroval hhiring (hdb ▸ hdates.others),
    startsInApproval_iff hdates, unusedDays, suspensionToEnd_nextPk hfk]
  refine ⟨⟨le_rfl, ?_⟩, fun o ho => ?_⟩
  · simpa using le_defaultEndDate hiring
  · obtain ⟨a, ha, _⟩ := hs.otherHirings ho
    have hmem : ctx.nextPk ∈ ctx.db.approvals := by
      rw [← AList.lookup_isSome, hdb, Option.mem_def.mp ha]
      rfl
    exact absurd hmem (nextPk_notMem ctx)

/-- The law after an acceptance that reuses an approval. -/
theorem inside_iff_of_reused {ctx : AcceptContext} {r' : JobApplication} {jobSeeker : User} {hiring : Int} {id : Nat}
    {a : Approval} (hw : s.WellFormed) (hs : s.Inside) (hdb : ctx.db = s.db) (hreplaces : Replaces s s' pk r')
    (hstate : r'.state = .accepted) (happroval : r'.approval = some id) (hhiring : r'.hiringStartAt = some hiring)
    (hlatest : ctx.latestApproval jobSeeker = some (id, a)) (hvalid : a.isValid ctx.today = true)
    (hend : hiring ≤ a.endAt)
    (hdelivered : Delivered ctx.now hiring
      (if hiring < a.startAt then ctx.db.updateStartDate ctx.now id a hiring else ctx.db) s'.db (some id)) :
    s'.Inside ↔ (hiring < a.startAt → ctx.today < a.startAt) ∧ ctx.SuspensionEndsBefore jobSeeker hiring ∧
      ∀ o ∈ s.otherHirings pk id,
        o + unusedDays ctx.db ctx.today id hiring ≤ (ctx.approvalUsed jobSeeker hiring).2 := by
  have hrow : ctx.db.approvals.lookup id = some a := Approvals.lookup_of_latestApproval hlatest
  have hused : ctx.approvalUsed jobSeeker hiring =
      (id, if hiring < a.startAt then Approval.defaultEndDate hiring else a.endAt) := by
    simp only [AcceptContext.approvalUsed, hlatest, hvalid, ↓reduceIte]
  have hafter : ∀ o ∈ s.otherHirings pk id, a.startAt ≤ o := fun o ho => by
    obtain ⟨b, hb, hstart, _⟩ := hs.otherHirings ho
    rw [← hdb, hrow] at hb
    cases hb
    exact hstart
  have hdefault := le_defaultEndDate hiring
  have hdates := reused_dates (hdb ▸ hw.foreignKeys) hrow hdelivered
  by_cases hmoved : hiring < a.startAt
  · have hused₂ : (ctx.approvalUsed jobSeeker hiring).2 = Approval.defaultEndDate hiring := by
      rw [hused, if_pos hmoved]
    rw [suspensionEndsBefore_iff (hused₂ ▸ hdefault), hused₂]
    simp only [hused]
    by_cases hfuture : ctx.today < a.startAt
    · rw [if_pos ⟨hmoved, hfuture⟩] at hdates
      rw [inside_iff_of_linked hreplaces hs hstate happroval hhiring (hdb ▸ hdates.others)]
      simp only [startsInApproval_iff hdates, hfuture, implies_true, le_refl, true_and]
      refine and_congr_right' (forall₂_congr fun o ho => ?_)
      exact ⟨fun h => h.2, fun h => ⟨hmoved.le.trans (hafter o ho), h⟩⟩
    · rw [if_neg fun h => hfuture h.2] at hdates
      rw [inside_iff_of_linked hreplaces hs hstate happroval hhiring (hdb ▸ hdates.others)]
      simp only [startsInApproval_iff hdates]
      exact ⟨fun h => absurd h.1.1 (not_le.mpr hmoved), fun h => absurd (h.1 hmoved) hfuture⟩
  · have hused₂ : (ctx.approvalUsed jobSeeker hiring).2 = a.endAt := by
      rw [hused, if_neg hmoved]
    rw [if_neg fun h => hmoved h.1] at hdates
    rw [suspensionEndsBefore_iff (hused₂ ▸ hend), hused₂,
      inside_iff_of_linked hreplaces hs hstate happroval hhiring (hdb ▸ hdates.others)]
    simp only [hused, startsInApproval_iff hdates, hmoved, not_lt.mp hmoved, false_imp_iff, true_and]
    exact and_congr_right' (forall₂_congr fun o ho => and_iff_right (hafter o ho))

theorem step_accept {ctx : AcceptContext} {values : AcceptValues} (hw : s.WellFormed) (hs : s.Inside)
    (h : s.accept pk ctx values = some s') :
    s'.WellFormed ∧ (s'.Inside ↔ s.KeepsContracts (.accept pk ctx values)) := by
  obtain ⟨r, filled, r', db, others, hr, hfilled, haccept, hothers, rfl⟩ := accept_eq_some h
  obtain ⟨hmem, hpk⟩ := get_eq_some hr
  obtain ⟨hof, hkept, hcoherent, hpks⟩ := others_of_mapM hothers
  have hsource : r.state ≠ .accepted := by
    obtain ⟨hsource, _⟩ := perform_ok haccept
    rw [hfilled.state] at hsource
    exact fun heq => absurd (heq ▸ hsource) (by decide)
  have houtcome := accept_outcome (hfilled.approval.trans (hw.approval hmem hsource)) haccept
  obtain ⟨hiringStartAt, hhiring, hhiring', db₁, hissuance, hdelivered⟩ := houtcome.hiring
  rw [hfilled.hiringStartAt] at hhiring
  rw [hfilled.toCompany, hfilled.jobSeeker] at hissuance
  have hreplaces : Replaces s
      { s with db, jobApplications := save { s with jobApplications := others } pk r' } pk r' :=
    save_replaces hr hof hkept
  have hwell : db.ForeignKeys → WellFormed
      { s with db, jobApplications := save { s with jobApplications := others } pk r' } :=
    save_wellFormed hw (hcoherent hw.coherent) hpks houtcome.coherent
      (houtcome.pk.trans (hfilled.pk.trans hpk))
  -- The condition reads the application and the hiring date of the acceptance.
  have hkeeps : s.KeepsContracts (.accept pk ctx values) ↔ (r.toCompany.isSubjectToIaeRules = true →
      ∀ e ∈ (s.context ctx).latestApproval r.jobSeeker, e.2.isValid s.now.date = true →
        (hiringStartAt < e.2.startAt → s.now.date < e.2.startAt) ∧
        (s.context ctx).SuspensionEndsBefore r.jobSeeker hiringStartAt ∧
        ∀ o ∈ s.otherHirings pk e.1, o + unusedDays s.db s.now.date e.1 hiringStartAt ≤
          ((s.context ctx).approvalUsed r.jobSeeker hiringStartAt).2) := by
    simp only [KeepsContracts, hr, hhiring, Option.mem_def, Option.some.injEq, forall_eq']
  rw [hkeeps]
  generalize happroval : r'.approval = approval at hissuance hdelivered
  cases hissuance with
  | unlinked hnone =>
      subst hdelivered
      refine ⟨hwell hw.foreignKeys, iff_of_true ?_ fun hiae e he hvalid => ?_⟩
      · exact inside_of_unlinked hreplaces hs (Or.inr happroval) fun _ _ _ _ _ _ => rfl
      · exact absurd hvalid (Bool.eq_false_iff.mp (hnone hiae e he))
  | @created a hnone hstart hend =>
      have hdates := created_dates hw.foreignKeys hdelivered
      rw [hstart, hend] at hdates
      refine ⟨hwell hdates.foreignKeys, iff_of_true ?_ fun _ e he hvalid => ?_⟩
      · exact inside_of_created hw hs rfl hreplaces houtcome.state happroval hhiring' hdates
      · exact absurd hvalid (Bool.eq_false_iff.mp (hnone e he))
  | @reused id a hiae hlatest hvalid hend =>
      have hdates := reused_dates hw.foreignKeys (Approvals.lookup_of_latestApproval hlatest) hdelivered
      have hkeys : db.ForeignKeys := by
        split at hdates
        · exact hdates.foreignKeys
        · exact hdates.foreignKeys
      refine ⟨hwell hkeys, ?_⟩
      rw [inside_iff_of_reused hw hs rfl hreplaces houtcome.state happroval hhiring' hlatest hvalid hend hdelivered]
      simp only [hlatest, Option.mem_def, Option.some.injEq, forall_eq', hiae, forall_const]
      exact ⟨fun h _ => h, fun h => h hvalid⟩

/-! ## A new hiring date -/

/-- What an accepted post consists of. -/
theorem editContractStartDate_eq_some {employer : Employer} {form : EditHiringDateForm}
    (h : s.editContractStartDate pk employer form = some s') :
    ∃ r r', s.get pk = some r ∧ form.apply s.now.date ((s.approval r).map Prod.snd) r = .ok (form.fill r) ∧
      (form.fill r).save s.now = .ok r' ∧
      s' = { s with
        db := match s.approval r with
          | some (id, a) => s.db.updateStartDate s.now id a form.hiringStartAt
          | none => s.db
        jobApplications := s.save pk r' } := by
  simp only [editContractStartDate, Option.bind_eq_bind, Option.bind_eq_some_iff, Option.filter_eq_some_iff,
    Option.pure_def, Option.some.injEq, toOption_eq_some] at h
  obtain ⟨r, ⟨hr, _⟩, filled, happly, r', hsave, rfl⟩ := h
  have hfilled : filled = form.fill r := by
    unfold EditHiringDateForm.apply at happly
    obtain ⟨_, _, h₁⟩ := bind_eq_ok.mp happly
    obtain ⟨_, _, h₂⟩ := bind_eq_ok.mp h₁
    obtain ⟨_, _, h₃⟩ := bind_eq_ok.mp h₂
    cases h₃
    rfl
  subst hfilled
  exact ⟨r, r', hr, happly, hsave, rfl⟩

/-- The dates that the form lets through: from today on, and before the end of an approval that has started. -/
theorem apply_dates {form : EditHiringDateForm} {today : Int} {approval : Option Approval} {r r' : JobApplication}
    (h : form.apply today approval r = .ok r') :
    today ≤ form.hiringStartAt ∧
      ∀ a ∈ approval, canPostponeStartDate today a = false → form.hiringStartAt < a.endAt := by
  unfold EditHiringDateForm.apply at h
  obtain ⟨_, hstart, h⟩ := bind_eq_ok.mp h
  obtain ⟨_, hclean, h⟩ := bind_eq_ok.mp h
  constructor
  · unfold EditHiringDateForm.cleanHiringStartAt at hstart
    split at hstart
    · cases hstart
    · rename_i hnot
      exact not_lt.mp hnot
  · rintro a ha hstarted
    unfold EditHiringDateForm.clean at hclean
    split at hclean
    · cases hclean
    · split at hclean
      · cases hclean
      · rename_i hnot
        rw [Option.mem_def.mp ha, Option.any_some, hstarted] at hnot
        simpa using hnot

/-- The row of an application after it has been saved. -/
theorem mem_get_save {r' x y : JobApplication} {db : Db} (hw : s.WellFormed) (hpk : r'.pk = pk)
    (hx : x ∈ s.jobApplications) (hy : y ∈ get { s with db, jobApplications := s.save pk r' } x.pk) :
    if x.pk = pk then y = r' else y = x := by
  obtain ⟨hmem, hypk⟩ := get_eq_some hy
  obtain ⟨z, hz, rfl⟩ := List.mem_map.mp hmem
  by_cases hzpk : z.pk = pk
  · rw [if_pos hzpk] at hypk
    rw [if_pos (hypk.symm.trans hpk), if_pos hzpk]
  · rw [if_neg hzpk] at hypk
    rw [if_neg (hypk ▸ hzpk), if_neg hzpk]
    exact hw.eq_of_pk hz hx hypk

theorem editsAccepted_iff {employer : Employer} {form : EditHiringDateForm} {r r' : JobApplication} {db : Db}
    (hw : s.WellFormed) (hr : s.get pk = some r) (hpk : r'.pk = pk)
    (hstart : r'.hiringStartAt = some form.hiringStartAt) (hend : r'.hiringEndAt = form.hiringEndAt)
    (h : s.editContractStartDate pk employer form = some { s with db, jobApplications := s.save pk r' }) :
    s.EditsAccepted (.editContractStartDate pk employer form) ↔
      (r.state = .accepted ∨ r.hiringStartAt = some form.hiringStartAt ∧ r.hiringEndAt = form.hiringEndAt) := by
  obtain ⟨hmem, hrpk⟩ := get_eq_some hr
  simp only [EditsAccepted, h, Option.mem_def, Option.some.injEq, forall_eq']
  constructor
  · intro hedits
    have hsaved : r' ∈ s.save pk r' := List.mem_map.mpr ⟨r, hmem, if_pos hrpk⟩
    have hsome : (get { s with db, jobApplications := s.save pk r' } r.pk).isSome = true :=
      List.find?_isSome.mpr ⟨r', hsaved, by simp [hpk, hrpk]⟩
    obtain ⟨y, hy⟩ := Option.isSome_iff_exists.mp hsome
    have hyr' := mem_get_save hw hpk hmem hy
    rw [if_pos hrpk] at hyr'
    by_cases hsame : r.hiringStartAt = some form.hiringStartAt ∧ r.hiringEndAt = form.hiringEndAt
    · exact Or.inr hsame
    · refine Or.inl (hedits r hmem y hy ?_)
      rw [hyr', hstart, hend]
      by_contra hnot
      rw [not_or, not_not, not_not] at hnot
      exact hsame ⟨hnot.1.symm, hnot.2.symm⟩
  · intro hcond x hx y hy hdiffers
    have hsaved := mem_get_save hw hpk hx hy
    split at hsaved
    · rename_i hxpk
      have hxr : x = r := hw.eq_of_pk hx hmem (hxpk.trans hrpk.symm)
      rw [hsaved, hxr, hstart, hend] at hdiffers
      rw [hxr]
      refine hcond.resolve_right fun hsame => ?_
      rcases hdiffers with hdiffers | hdiffers
      · exact hdiffers hsame.1.symm
      · exact hdiffers hsame.2.symm
    · rw [hsaved] at hdiffers
      rcases hdiffers with hdiffers | hdiffers
      · exact absurd rfl hdiffers
      · exact absurd rfl hdiffers

/-- The law after a new hiring date of a contract. -/
theorem inside_iff_of_edited {form : EditHiringDateForm} {r r' : JobApplication} {id : Nat} {a : Approval}
    (hs : s.Inside) (hreplaces : Replaces s
      { s with db := s.db.updateStartDate s.now id a form.hiringStartAt, jobApplications := s.save pk r' } pk r')
    (hstate : r'.state = .accepted) (happroval : r'.approval = some id)
    (hhiring : r'.hiringStartAt = some form.hiringStartAt) (hrow : s.db.approvals.lookup id = some a)
    (happly : form.apply s.now.date (some a) r = .ok (form.fill r)) :
    Inside { s with db := s.db.updateStartDate s.now id a form.hiringStartAt, jobApplications := s.save pk r' } ↔
      (canPostponeStartDate s.now.date a = true → ∀ o ∈ s.otherHirings pk id,
        form.hiringStartAt ≤ o ∧ o ≤ Approval.defaultEndDate form.hiringStartAt) := by
  obtain ⟨htoday, hbefore⟩ := apply_dates happly
  by_cases hfuture : s.now.date < a.startAt
  · have hlookup : ∀ o, StartsInApproval (s.db.updateStartDate s.now id a form.hiringStartAt) id o ↔
        form.hiringStartAt ≤ o ∧ o ≤ Approval.defaultEndDate form.hiringStartAt := fun o => by
      simp only [StartsInApproval, Db.updateStartDate, if_pos hfuture, AList.lookup_insert, Option.mem_def,
        Option.some.injEq, exists_eq_left']
    have hothers : ∀ j, j ≠ id →
        (s.db.updateStartDate s.now id a form.hiringStartAt).approvals.lookup j = s.db.approvals.lookup j :=
      fun j hj => by
        simp only [Db.updateStartDate, if_pos hfuture]
        exact AList.lookup_insert_ne hj
    rw [inside_iff_of_linked hreplaces hs hstate happroval hhiring hothers]
    simp only [hlookup, canPostponeStartDate, hfuture, decide_true, forall_const, le_refl, true_and,
      le_defaultEndDate]
  · have hsame : s.db.updateStartDate s.now id a form.hiringStartAt = s.db := if_neg hfuture
    have hstarted : canPostponeStartDate s.now.date a = false := decide_eq_false hfuture
    refine iff_of_true ?_ fun h => absurd h (Bool.eq_false_iff.mp hstarted)
    rw [inside_iff_of_linked hreplaces hs hstate happroval hhiring fun j _ => by rw [hsame]]
    simp only [hsame]
    refine ⟨⟨a, hrow, ?_, (hbefore a rfl hstarted).le⟩, fun o ho => hs.otherHirings ho⟩
    exact (not_lt.mp hfuture).trans htoday

theorem updateStartDate_foreignKeys {db : Db} (hfk : db.ForeignKeys) (now : DateTime) (id : Nat) (a : Approval)
    (newStartDate : Int) : (db.updateStartDate now id a newStartDate).ForeignKeys := by
  unfold Db.updateStartDate
  split
  · exact hfk.mono fun j hj => (AList.mem_insert _).mpr (Or.inr hj)
  · exact hfk

theorem step_editContractStartDate {employer : Employer} {form : EditHiringDateForm} (hw : s.WellFormed)
    (hs : s.Inside) (h : s.editContractStartDate pk employer form = some s') :
    s'.WellFormed ∧ (s'.Inside ∧ s.EditsAccepted (.editContractStartDate pk employer form) ↔
      s.KeepsContracts (.editContractStartDate pk employer form)) := by
  obtain ⟨r, r', hr, happly, hsave, hs'⟩ := editContractStartDate_eq_some h
  obtain ⟨hmem, hpk⟩ := get_eq_some hr
  have hcoherent := save_coherent hsave
  have hr' := save_ok hsave
  have hpk' : r'.pk = pk := by
    rw [hr']
    exact hpk
  have hstate : r'.state = r.state := by
    rw [hr']
    rfl
  have happroval : r'.approval = r.approval := by
    rw [hr']
    rfl
  have hstart : r'.hiringStartAt = some form.hiringStartAt := by
    rw [hr']
    rfl
  have hend : r'.hiringEndAt = form.hiringEndAt := by
    rw [hr']
    rfl
  have hedits := editsAccepted_iff hw hr hpk' hstart hend (hs' ▸ h)
  have hkeeps : s.KeepsContracts (.editContractStartDate pk employer form) ↔
      (r.state = .accepted ∨ r.hiringStartAt = some form.hiringStartAt ∧ r.hiringEndAt = form.hiringEndAt) ∧
        ∀ e ∈ s.approval r, canPostponeStartDate s.now.date e.2 = true → ∀ o ∈ s.otherHirings pk e.1,
          form.hiringStartAt ≤ o ∧ o ≤ Approval.defaultEndDate form.hiringStartAt := by
    simp only [KeepsContracts, hr, Option.mem_def, Option.some.injEq, forall_eq']
  rw [hedits, hkeeps]
  suffices hinside : s'.WellFormed ∧ (s'.Inside ↔ ∀ e ∈ s.approval r, canPostponeStartDate s.now.date e.2 = true →
      ∀ o ∈ s.otherHirings pk e.1,
        form.hiringStartAt ≤ o ∧ o ≤ Approval.defaultEndDate form.hiringStartAt) from
    ⟨hinside.1, and_comm.trans (and_congr_right' hinside.2)⟩
  subst hs'
  cases hlinked : s.approval r with
  | none =>
      have hreplaces : Replaces s { s with jobApplications := s.save pk r' } pk r' :=
        save_replaces hr (fun _ hx _ => hx) fun _ hx _ => hx
      refine ⟨save_wellFormed hw hw.coherent rfl hcoherent hpk' hw.foreignKeys, ?_⟩
      have hunlinked : r'.state ≠ .accepted ∨ r'.approval = none := by
        by_contra hnot
        rw [not_or, not_not, hstate, happroval] at hnot
        obtain ⟨id, hid⟩ := Option.ne_none_iff_exists'.mp hnot.2
        obtain ⟨_, _, a, ha, _⟩ := hs r hmem hnot.1 id hid
        rw [approval, hid, Option.bind_some, Option.mem_def.mp ha] at hlinked
        cases hlinked
      exact iff_of_true (inside_of_unlinked hreplaces hs hunlinked fun _ _ _ _ _ _ => rfl) fun _ he => nomatch he
  | some e =>
      obtain ⟨id, a⟩ := e
      have hreplaces : Replaces s
          { s with db := s.db.updateStartDate s.now id a form.hiringStartAt, jobApplications := s.save pk r' } pk
          r' := save_replaces hr (fun _ hx _ => hx) fun _ hx _ => hx
      have hlinked' := hlinked
      simp only [approval, Option.bind_eq_some_iff, Option.map_eq_some_iff, Prod.mk.injEq] at hlinked'
      obtain ⟨_, hid, _, hrow, rfl, rfl⟩ := hlinked'
      have haccepted : r.state = .accepted := by
        by_contra hnot
        rw [hw.approval hmem hnot] at hid
        cases hid
      rw [hlinked, Option.map_some] at happly
      refine ⟨save_wellFormed hw hw.coherent rfl hcoherent hpk'
        (updateStartDate_foreignKeys hw.foreignKeys s.now _ _ _), ?_⟩
      rw [inside_iff_of_edited hs hreplaces (hstate.trans haccepted) (happroval.trans hid) hstart hrow happly]
      simp only [Option.mem_def, Option.some.injEq, forall_eq']

/-! ## A cancellation -/

theorem cancel_eq_some {sent : Bool} (h : s.cancel pk sent = some s') :
    ∃ r r' db, s.get pk = some r ∧ r.state = .accepted ∧ r'.pk = r.pk ∧ r'.state = .cancelled ∧ r'.Coherent ∧
      s.deleteUnused r = some db ∧ s' = { s with db, jobApplications := s.save pk r' } := by
  simp only [cancel, Option.bind_eq_bind, Option.bind_eq_some_iff, Prod.exists, Option.pure_def,
    Option.some.injEq, toOption_eq_some] at h
  obtain ⟨r, hr, r', u, hperform, db, hdb, rfl⟩ := h
  have hcoherent := perform_coherent hperform
  obtain ⟨hsource, r₁, hbody, hr'⟩ := perform_ok hperform
  have hsame : r'.pk = r.pk := by
    unfold cancelBody at hbody
    split at hbody
    · cases hbody
    · cases hbody
      rw [hr']
      rfl
  have hcancelled : r'.state = .cancelled := by
    rw [hr']
    rfl
  exact ⟨r, r', db, hr, by simpa [Transition.sources] using hsource, hsame, hcancelled, hcoherent, hdb, rfl⟩

/-- The approval that a cancellation deletes has no other contract. -/
theorem deleteUnused_eq_some {r : JobApplication} {db : Db} (hw : s.WellFormed) (hr : r ∈ s.jobApplications)
    (hstate : r.state = .accepted) (h : s.deleteUnused r = some db) :
    db.ForeignKeys ∧ ∀ x ∈ s.jobApplications, x ≠ r → x.state = .accepted → ∀ id ∈ x.approval,
      db.approvals.lookup id = s.db.approvals.lookup id := by
  unfold deleteUnused at h
  split at h
  · rename_i id hid
    split at h
    · rename_i hdelete
      obtain ⟨hothers, hkeys⟩ := Approvals.deleteApproval_eq_some hw.foreignKeys h
      refine ⟨hkeys, fun x hx hne hxstate j hj => hothers j fun heq => hne ?_⟩
      simp only [canBeDeleted, decide_eq_true_eq, List.length_eq_one_iff] at hdelete
      obtain ⟨y, hy⟩ := hdelete
      have honly : ∀ z ∈ s.jobApplications, z.state = .accepted → z.approval = some id → z = y := by
        intro z hz hzstate hzapproval
        have hmem : z ∈ [y] := hy ▸ List.mem_filter.mpr ⟨hz, by simp [hzstate, hzapproval]⟩
        exact List.mem_singleton.mp hmem
      rw [honly x hx hxstate (heq ▸ hj), honly r hr hstate hid]
    · cases h
      exact ⟨hw.foreignKeys, fun _ _ _ _ _ _ => rfl⟩
  · cases h
    exact ⟨hw.foreignKeys, fun _ _ _ _ _ _ => rfl⟩

theorem step_cancel {sent : Bool} (hw : s.WellFormed) (hs : s.Inside) (h : s.cancel pk sent = some s') :
    s'.WellFormed ∧ s'.Inside := by
  obtain ⟨r, r', db, hr, hstate, hpk', hcancelled, hcoherent, hdelete, rfl⟩ := cancel_eq_some h
  obtain ⟨hmem, hpk⟩ := get_eq_some hr
  obtain ⟨hkeys, hothers⟩ := deleteUnused_eq_some hw hmem hstate hdelete
  have hreplaces : Replaces s { s with db, jobApplications := s.save pk r' } pk r' :=
    save_replaces hr (fun _ hx _ => hx) fun _ hx _ => hx
  refine ⟨save_wellFormed hw hw.coherent rfl hcoherent (hpk'.trans hpk) hkeys, ?_⟩
  refine inside_of_unlinked hreplaces hs (Or.inl (by rw [hcancelled]; decide)) fun x hx hxpk hxstate => ?_
  exact hothers x hx (fun heq => hxpk (heq ▸ hpk)) hxstate

/-! ## One step -/

theorem step_wellFormed {action : Action} (hw : s.WellFormed) (hs : s.Inside) (h : s.step action = some s') :
    s'.WellFormed := by
  cases action with
  | accept pk ctx values => exact (step_accept hw hs h).1
  | editContractStartDate pk employer form => exact (step_editContractStartDate hw hs h).1
  | cancel pk sent => exact (step_cancel hw hs h).1
  | wait now =>
      obtain ⟨_, hs'⟩ := Option.ite_none_right_eq_some.mp h
      cases hs'
      exact ⟨hw.coherent, hw.foreignKeys, hw.distinct⟩

theorem step_inside_iff {action : Action} (hw : s.WellFormed) (hs : s.Inside) (h : s.step action = some s') :
    s'.Inside ∧ s.EditsAccepted action ↔ s.KeepsContracts action := by
  cases action with
  | accept pk ctx values => exact (and_iff_left trivial).trans (step_accept hw hs h).2
  | editContractStartDate pk employer form => exact (step_editContractStartDate hw hs h).2
  | cancel pk sent => exact iff_of_true ⟨(step_cancel hw hs h).2, trivial⟩ trivial
  | wait now =>
      obtain ⟨_, hs'⟩ := Option.ite_none_right_eq_some.mp h
      cases hs'
      exact iff_of_true ⟨hs, trivial⟩ trivial

end Contracts

end Itou.JobApplications
