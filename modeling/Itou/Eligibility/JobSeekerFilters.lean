import Itou.Eligibility.ConsideredValid

/-!
# The list of job seekers and its filters

The querysets `eligibility_validated` and `eligibility_pending`, and the choices of `FilterForm`. A value that the database
has not is `none`, and no condition on it holds.
-/

namespace Itou.Eligibility

open Itou.Lib

/-! ## Eligibility -/

namespace Registry

variable (r : Registry) (today : Int)

/-- `get_eligibility_validated_lookup`: an approval that is valid exists, or a diagnosis that is valid does. -/
def eligibilityValidatedLookup (siae : Option Nat) (jobSeeker : User) : Bool :=
  (r.db.approvals.rows.any fun a => a.user = jobSeeker.pk && today ≤ a.endAt) ||
    (forJobSeekerAndSiae r.diagnoses jobSeeker.pk siae).any fun d => d.isValid today

/-- `UserQuerySet.eligibility_validated`. -/
def eligibilityValidated (siae : Option Nat) (users : List User) : List User :=
  users.filter fun u => r.eligibilityValidatedLookup today siae u

/-- `UserQuerySet.eligibility_pending`. -/
def eligibilityPending (siae : Option Nat) (users : List User) : List User :=
  users.filter fun u => !r.eligibilityValidatedLookup today siae u

end Registry

/-! ## `FilterForm` -/

structure Contract where
  jobSeeker : Nat
  endDate : Option Int
  deriving DecidableEq

/-- What the conditions read. `advisors` is the annotation of the queryset. -/
structure FilteredDb where
  registry : Registry
  contracts : List Contract
  isStalled : Nat → Bool
  isNotStalledAnymore : Nat → Option Bool
  advisors : Nat → List Nat

/-- `cleaned_data`. A box that the form does not have is not ticked. -/
structure FilterData where
  jobSeeker : Option Nat
  eligibilityValidated : Bool
  eligibilityPending : Bool
  approvalActive : Bool
  approvalExpired : Bool
  noApproval : Bool
  isStalled : Bool
  organizationMembers : List Nat
  approvalEndingSoon : Bool
  contractEndingSoon : Bool

def approvalEndingSoonDays : Int := 90

def iaeContractEndingSoonDays : Int := 30

namespace FilteredDb

variable (db : FilteredDb) (today : Int)

/-- The annotation `last_approval_end_at`. -/
def lastApprovalEndAt (jobSeeker : User) : Option Int :=
  (orderByDesc (·.endAt) (db.registry.db.approvals.rows.filter fun a => a.user = jobSeeker.pk)).head?.map (·.endAt)

/-- The annotation `last_contract_end_date`. -/
def lastContractEndDate (jobSeeker : User) : Option Int :=
  (orderByDesc id ((db.contracts.filter fun c => c.jobSeeker = jobSeeker.pk).filterMap (·.endDate))).head?

/-- `BETWEEN`. -/
def inRange (value : Option Int) (first last : Int) : Bool := value.any fun value => first ≤ value && value ≤ last

/-- `approval_status_filter`. -/
def approvalStatusFilter (data : FilterData) (jobSeeker : User) : Bool :=
  (data.approvalActive && (db.lastApprovalEndAt jobSeeker).any fun endAt => today ≤ endAt) ||
    (data.approvalExpired && (db.lastApprovalEndAt jobSeeker).any fun endAt => endAt < today) ||
    (data.noApproval && (db.lastApprovalEndAt jobSeeker).isNone)

/-- `end_of_journey_filter`. -/
def endOfJourneyFilter (data : FilterData) (jobSeeker : User) : Bool :=
  (!data.approvalEndingSoon || inRange (db.lastApprovalEndAt jobSeeker) today (today + approvalEndingSoonDays)) &&
    (!data.contractEndingSoon || inRange (db.lastContractEndDate jobSeeker) today (today + iaeContractEndingSoonDays))

/-- `is_considered_stalled_condition(True)`. -/
def isConsideredStalled (jobSeeker : User) : Bool :=
  db.isStalled jobSeeker.pk && db.isNotStalledAnymore jobSeeker.pk ≠ some true

/-- The list `filters`. -/
def filters (data : FilterData) : List (User → Bool) :=
  (data.jobSeeker.toList.map fun pk u => decide (u.pk = pk)) ++
    (if (data.approvalActive || data.approvalExpired || data.noApproval) &&
        !(data.approvalActive && data.approvalExpired && data.noApproval) then
      [db.approvalStatusFilter today data]
    else []) ++
    (if data.approvalEndingSoon || data.contractEndingSoon then [db.endOfJourneyFilter today data] else []) ++
    if data.organizationMembers = [] then []
    else [fun u => data.organizationMembers.any fun user => (db.advisors u.pk).contains user]

/-- `FilterForm.filter`. -/
def filter (data : FilterData) (queryset : List User) : List User :=
  let queryset :=
    if data.eligibilityValidated && !data.eligibilityPending then
      db.registry.eligibilityValidated today none queryset
    else if data.eligibilityPending && !data.eligibilityValidated then
      db.registry.eligibilityPending today none queryset
    else queryset
  let queryset := if data.isStalled then queryset.filter db.isConsideredStalled else queryset
  queryset.filter fun u => (db.filters today data).all fun condition => condition u

end FilteredDb

/-! ## What the boxes say -/

/-- Some choice of a group that is ticked holds, when one is ticked. A choice is a box and what it says. -/
def OneOf (choices : List (Bool × Prop)) : Prop :=
  (∃ c ∈ choices, c.1 = true) → ∃ c ∈ choices, c.1 = true ∧ c.2

/-- Each choice of a group that is ticked holds. -/
def AllOf (choices : List (Bool × Prop)) : Prop := ∀ c ∈ choices, c.1 = true → c.2

/-- The status of the PASS IAE of a job seeker. -/
inductive PassStatus where
  | valid
  | expired
  | none
  deriving DecidableEq

namespace FilteredDb

variable (db : FilteredDb) (today : Int) (waitingPeriodEnd : Int → Int)

/-- The approvals of a job seeker. -/
def approvalsOf (jobSeeker : User) : List Approvals.Approval :=
  db.registry.db.approvals.rows.filter fun a => a.user = jobSeeker.pk

/-- The statuses, as the page of the job seeker gives them. -/
def passStatus (jobSeeker : User) : PassStatus :=
  if db.registry.hasValidApproval today waitingPeriodEnd jobSeeker then .valid
  else if db.approvalsOf jobSeeker = [] then .none
  else .expired

/-- A date of the list is the latest one, and is in the days from today on. -/
def EndsSoon (dates : List Int) (days : Int) : Prop :=
  ∃ last ∈ dates, (∀ d ∈ dates, d ≤ last) ∧ today ≤ last ∧ last ≤ today + days

/-- What the choices say of a job seeker, group by group. -/
structure Satisfies (data : FilterData) (u : User) : Prop where
  jobSeeker : ∀ pk ∈ data.jobSeeker, u.pk = pk
  eligibility : OneOf [
    (data.eligibilityValidated, db.registry.hasConsideredValid today waitingPeriodEnd u none = true),
    (data.eligibilityPending, db.registry.hasConsideredValid today waitingPeriodEnd u none = false)]
  passStatus : OneOf [
    (data.approvalActive, db.passStatus today waitingPeriodEnd u = .valid),
    (data.approvalExpired, db.passStatus today waitingPeriodEnd u = .expired),
    (data.noApproval, db.passStatus today waitingPeriodEnd u = .none)]
  /-- Both conditions are meant to hold when both are ticked. -/
  endOfJourney : AllOf [
    (data.approvalEndingSoon, EndsSoon today ((db.approvalsOf u).map (·.endAt)) approvalEndingSoonDays),
    (data.contractEndingSoon, EndsSoon today
      ((db.contracts.filter fun c => c.jobSeeker = u.pk).filterMap (·.endDate)) iaeContractEndingSoonDays)]
  stalled : AllOf [(data.isStalled, db.isStalled u.pk = true ∧ db.isNotStalledAnymore u.pk ≠ some true)]
  organizationMembers : OneOf (data.organizationMembers.map fun user => (true, user ∈ db.advisors u.pk))

end FilteredDb

/-! ## The two querysets -/

section Validated

variable {r : Registry} {today : Int} {waitingPeriodEnd : Int → Int} {u : User}

theorem mem_approvalsOf {e : Nat × Approvals.Approval} : e ∈ r.db.approvalsOf u.pk ↔
    (⟨e.1, e.2⟩ : Sigma fun _ => Approvals.Approval) ∈ r.db.approvals.entries ∧ e.2.user = u.pk := by
  rw [Approvals.Db.approvalsOf, mem_orderByDesc, List.mem_filter, List.mem_map, decide_eq_true_eq]
  constructor
  · rintro ⟨⟨x, hx, rfl⟩, huser⟩
    exact ⟨hx, huser⟩
  · rintro ⟨hx, huser⟩
    exact ⟨⟨_, hx, rfl⟩, huser⟩

/-- The latest approval is valid when one of them is. -/
theorem hasValidApproval_iff (waitingPeriodEnd : Int → Int) (hu : u.isJobSeeker = true) :
    r.hasValidApproval today waitingPeriodEnd u = true ↔
    ∃ a ∈ r.db.approvals.rows, a.user = u.pk ∧ today ≤ a.endAt := by
  have hrows : (∃ a ∈ r.db.approvals.rows, a.user = u.pk ∧ today ≤ a.endAt) ↔
      ∃ e ∈ r.db.approvalsOf u.pk, e.2.isValid today = true := by
    constructor
    · rintro ⟨a, ha, huser, hend⟩
      obtain ⟨x, hx, rfl⟩ := List.mem_map.mp ha
      exact ⟨(x.1, x.2), mem_approvalsOf.mpr ⟨hx, huser⟩, decide_eq_true hend⟩
    · rintro ⟨e, he, hvalid⟩
      obtain ⟨hx, huser⟩ := mem_approvalsOf.mp he
      exact ⟨e.2, List.mem_map.mpr ⟨_, hx, rfl⟩, huser, of_decide_eq_true hvalid⟩
  rw [hrows, Registry.hasValidApproval, Approvals.Db.latestApproval, hu]
  cases hlist : (r.db.approvalsOf u.pk).filter fun e => e.2.isValid today with
  | cons e rest =>
      have he := List.mem_filter.mp (hlist ▸ List.mem_cons_self : e ∈ _)
      exact iff_of_true (by simpa using he.2) ⟨e, he⟩
  | nil =>
      rw [List.filter_eq_nil_iff] at hlist
      refine iff_of_false (fun h => ?_) fun ⟨e, he, hvalid⟩ => hlist e he hvalid
      obtain ⟨e, he, hvalid⟩ := (Option.any_eq_true _ _).mp h
      simp only [Bool.not_true, Bool.false_eq_true, if_false] at he
      split at he
      · cases he
      · rename_i e' rest hsorted
        rw [Option.ite_none_left_eq_some, Option.some.injEq] at he
        obtain ⟨-, rfl⟩ := he
        exact hlist e' ((List.mem_insertionSort _).mp (hsorted ▸ List.mem_cons_self)) hvalid

/-- The query and the property say the same. -/
theorem eligibilityValidatedLookup_eq (hu : u.isJobSeeker = true) (siae : Option Nat) :
    r.eligibilityValidatedLookup today siae u = r.hasConsideredValid today waitingPeriodEnd u siae := by
  rw [Bool.eq_iff_iff, Registry.hasConsideredValid, Bool.or_eq_true, Registry.eligibilityValidatedLookup,
    Bool.or_eq_true, List.any_eq_true]
  simp only [Bool.and_eq_true, decide_eq_true_eq]
  rw [← hasValidApproval_iff waitingPeriodEnd hu]
  cases hvalid : r.hasValidApproval today waitingPeriodEnd u with
  | true => exact iff_of_true (Or.inl rfl) (Or.inl rfl)
  | false =>
      simp only [Bool.false_eq_true, false_or, List.any_eq_true]
      constructor
      · rintro ⟨d, hd, hdvalid⟩
        exact isSome_lastConsideredValid (d := d) (List.mem_filter.mpr ⟨hd, hdvalid⟩)
      · intro h
        obtain ⟨d, hd⟩ := Option.isSome_iff_exists.mp h
        obtain ⟨hmem, hdvalid⟩ := List.mem_filter.mp (lastConsideredValid_mem hd)
        exact ⟨d, hmem, hdvalid⟩

end Validated

/-! ## The annotations -/

section Annotations

variable {α : Type} {column : α → Int} {l : List α} {last : Int}

/-- The greatest value of a column. -/
theorem head?_orderByDesc_map_eq_some : (orderByDesc column l).head?.map column = some last ↔
    last ∈ l.map column ∧ ∀ d ∈ l.map column, d ≤ last := by
  constructor
  · intro h
    obtain ⟨x, hx, rfl⟩ := Option.map_eq_some_iff.mp h
    refine ⟨List.mem_map_of_mem (mem_orderByDesc.mp (List.mem_of_mem_head? hx)), fun d hd => ?_⟩
    obtain ⟨y, hy, rfl⟩ := List.mem_map.mp hd
    exact le_of_head?_orderByDesc hx hy
  · rintro ⟨hmem, hmax⟩
    obtain ⟨x, hx, rfl⟩ := List.mem_map.mp hmem
    have hne : orderByDesc column l ≠ [] := List.ne_nil_of_mem (mem_orderByDesc.mpr hx)
    obtain ⟨y, hy⟩ := Option.isSome_iff_exists.mp (List.isSome_head?.mpr hne)
    rw [hy, Option.map_some, Option.some.injEq]
    exact le_antisymm (hmax _ (List.mem_map_of_mem (mem_orderByDesc.mp (List.mem_of_mem_head? hy))))
      (le_of_head?_orderByDesc hy hx)

theorem head?_orderByDesc_map_eq_none : (orderByDesc column l).head?.map column = none ↔ l = [] := by
  rw [Option.map_eq_none_iff, List.head?_eq_none_iff, orderByDesc, ← List.length_eq_zero_iff,
    List.length_insertionSort, List.length_eq_zero_iff]

theorem inRange_iff (column : α → Int) (l : List α) (today days : Int) : FilteredDb.inRange ((orderByDesc column l).head?.map column) today
    (today + days) = true ↔ FilteredDb.EndsSoon today (l.map column) days := by
  rw [FilteredDb.inRange, Option.any_eq_true]
  simp only [head?_orderByDesc_map_eq_some, Bool.and_eq_true, decide_eq_true_eq, and_assoc, FilteredDb.EndsSoon]

end Annotations

section Filter

variable {db : FilteredDb} {today : Int} {waitingPeriodEnd : Int → Int} {u : User} {data : FilterData}

/-- An approval is valid when the last one is, its last day included. -/
theorem lastApprovalEndAt_valid (waitingPeriodEnd : Int → Int) (hu : u.isJobSeeker = true) :
    (db.lastApprovalEndAt u).any (fun endAt => today ≤ endAt) =
      db.registry.hasValidApproval today waitingPeriodEnd u := by
  rw [Bool.eq_iff_iff, hasValidApproval_iff waitingPeriodEnd hu]
  cases hlast : db.lastApprovalEndAt u with
  | none =>
      have hnil : db.approvalsOf u = [] := head?_orderByDesc_map_eq_none.mp hlast
      refine iff_of_false Bool.false_ne_true fun ⟨a, ha, huser, _⟩ => ?_
      have hmem : a ∈ db.approvalsOf u := List.mem_filter.mpr ⟨ha, decide_eq_true huser⟩
      rw [hnil] at hmem
      cases hmem
  | some last =>
      obtain ⟨hmem, hmax⟩ := head?_orderByDesc_map_eq_some.mp hlast
      obtain ⟨a, ha, rfl⟩ := List.mem_map.mp hmem
      obtain ⟨hrow, huser⟩ := List.mem_filter.mp ha
      rw [Option.any_some, decide_eq_true_eq]
      constructor
      · exact fun hle => ⟨a, hrow, of_decide_eq_true huser, hle⟩
      · rintro ⟨b, hb, hbuser, hle⟩
        exact hle.trans (hmax _ (List.mem_map_of_mem (List.mem_filter.mpr ⟨hb, decide_eq_true hbuser⟩)))

/-- The status that the annotation gives. -/
theorem passStatus_eq (hu : u.isJobSeeker = true) : db.passStatus today waitingPeriodEnd u =
    match db.lastApprovalEndAt u with
    | none => .none
    | some last => if today ≤ last then .valid else .expired := by
  rw [FilteredDb.passStatus, ← lastApprovalEndAt_valid waitingPeriodEnd hu]
  cases hlast : db.lastApprovalEndAt u with
  | none =>
      have hnil : db.approvalsOf u = [] := head?_orderByDesc_map_eq_none.mp hlast
      rw [Option.any_none, if_neg Bool.false_ne_true, if_pos hnil]
  | some last =>
      have hne : db.approvalsOf u ≠ [] := fun hnil =>
        Option.some_ne_none last (hlast.symm.trans (head?_orderByDesc_map_eq_none.mpr hnil))
      simp only [Option.any_some, decide_eq_true_eq, hne, if_false]

/-- The choices of the status, as the query has them. -/
theorem approvalStatusFilter_iff (hu : u.isJobSeeker = true) : db.approvalStatusFilter today data u = true ↔
    (data.approvalActive = true ∧ db.passStatus today waitingPeriodEnd u = .valid) ∨
      (data.approvalExpired = true ∧ db.passStatus today waitingPeriodEnd u = .expired) ∨
      (data.noApproval = true ∧ db.passStatus today waitingPeriodEnd u = .none) := by
  rw [passStatus_eq hu, FilteredDb.approvalStatusFilter]
  cases db.lastApprovalEndAt u with
  | none => simp
  | some last =>
      by_cases hle : today ≤ last
      · simp [hle]
      · simp [hle, not_le.mp hle]

theorem oneOf_two {a b : Bool} {p q : Prop} : OneOf [(a, p), (b, q)] ↔
    (a = true ∨ b = true → (a = true ∧ p) ∨ (b = true ∧ q)) := by
  simp [OneOf]

theorem oneOf_three {a b c : Bool} {p q r : Prop} : OneOf [(a, p), (b, q), (c, r)] ↔
    (a = true ∨ b = true ∨ c = true → (a = true ∧ p) ∨ (b = true ∧ q) ∨ (c = true ∧ r)) := by
  simp [OneOf]

/-- Both boxes of the eligibility, or none, filter nothing out. -/
theorem eligibility_iff (waitingPeriodEnd : Int → Int) (hu : u.isJobSeeker = true) {queryset : List User} :
    u ∈ (if data.eligibilityValidated && !data.eligibilityPending then
        db.registry.eligibilityValidated today none queryset
      else if data.eligibilityPending && !data.eligibilityValidated then
        db.registry.eligibilityPending today none queryset
      else queryset) ↔
    u ∈ queryset ∧ OneOf [
      (data.eligibilityValidated, db.registry.hasConsideredValid today waitingPeriodEnd u none = true),
      (data.eligibilityPending, db.registry.hasConsideredValid today waitingPeriodEnd u none = false)] := by
  have hvalidated : u ∈ db.registry.eligibilityValidated today none queryset ↔
      u ∈ queryset ∧ db.registry.eligibilityValidatedLookup today none u = true := List.mem_filter
  have hpending : u ∈ db.registry.eligibilityPending today none queryset ↔
      u ∈ queryset ∧ db.registry.eligibilityValidatedLookup today none u = false := by
    rw [Registry.eligibilityPending, List.mem_filter, Bool.not_eq_true']
  rw [oneOf_two, ← eligibilityValidatedLookup_eq hu]
  cases data.eligibilityValidated with
  | true =>
      cases data.eligibilityPending with
      | true => simp
      | false => simp [hvalidated]
  | false =>
      cases data.eligibilityPending with
      | true => simp [hpending]
      | false => simp

/-- So do all the boxes of the status. -/
theorem statusCondition_iff (waitingPeriodEnd : Int → Int) (hu : u.isJobSeeker = true) :
    (if (data.approvalActive || data.approvalExpired || data.noApproval) &&
        !(data.approvalActive && data.approvalExpired && data.noApproval) then
      [db.approvalStatusFilter today data]
    else []).all (fun condition => condition u) = true ↔
    OneOf [
      (data.approvalActive, db.passStatus today waitingPeriodEnd u = .valid),
      (data.approvalExpired, db.passStatus today waitingPeriodEnd u = .expired),
      (data.noApproval, db.passStatus today waitingPeriodEnd u = .none)] := by
  rw [oneOf_three]
  split
  · rename_i huse
    rw [Bool.and_eq_true, Bool.or_eq_true, Bool.or_eq_true, or_assoc] at huse
    simp only [List.all_cons, List.all_nil, Bool.and_true, huse.1, true_imp_iff]
    exact approvalStatusFilter_iff hu
  · rename_i huse
    rw [List.all_nil]
    refine iff_of_true rfl fun hticked => ?_
    -- All the boxes are ticked, and a job seeker has one of the statuses.
    have hall : data.approvalActive = true ∧ data.approvalExpired = true ∧ data.noApproval = true := by
      revert huse hticked
      cases data.approvalActive <;> cases data.approvalExpired <;> cases data.noApproval <;> simp
    rw [hall.1, hall.2.1, hall.2.2]
    cases db.passStatus today waitingPeriodEnd u <;> simp

theorem journeyCondition_iff :
    (if data.approvalEndingSoon || data.contractEndingSoon then [db.endOfJourneyFilter today data] else []).all
        (fun condition => condition u) = true ↔
    AllOf [
      (data.approvalEndingSoon,
        FilteredDb.EndsSoon today ((db.approvalsOf u).map (·.endAt)) approvalEndingSoonDays),
      (data.contractEndingSoon, FilteredDb.EndsSoon today
        ((db.contracts.filter fun c => c.jobSeeker = u.pk).filterMap (·.endDate)) iaeContractEndingSoonDays)] := by
  have happroval : FilteredDb.inRange (db.lastApprovalEndAt u) today (today + approvalEndingSoonDays) = true ↔
      FilteredDb.EndsSoon today ((db.approvalsOf u).map (·.endAt)) approvalEndingSoonDays := inRange_iff ..
  have hcontract : FilteredDb.inRange (db.lastContractEndDate u) today (today + iaeContractEndingSoonDays) = true ↔
      FilteredDb.EndsSoon today ((db.contracts.filter fun c => c.jobSeeker = u.pk).filterMap (·.endDate))
        iaeContractEndingSoonDays := by
    have h := inRange_iff id ((db.contracts.filter fun c => c.jobSeeker = u.pk).filterMap (·.endDate)) today
      iaeContractEndingSoonDays
    rwa [List.map_id, Option.map_id] at h
  have hfilter : db.endOfJourneyFilter today data u = true ↔
      (data.approvalEndingSoon = true →
        FilteredDb.inRange (db.lastApprovalEndAt u) today (today + approvalEndingSoonDays) = true) ∧
      (data.contractEndingSoon = true →
        FilteredDb.inRange (db.lastContractEndDate u) today (today + iaeContractEndingSoonDays) = true) := by
    simp only [FilteredDb.endOfJourneyFilter, Bool.and_eq_true, Bool.or_eq_true, Bool.not_eq_true', ← Bool.not_eq_true,
      imp_iff_not_or]
  rw [AllOf]
  simp only [List.forall_mem_cons, List.not_mem_nil, false_imp_iff, implies_true, and_true, ← happroval, ← hcontract]
  rw [← hfilter]
  split
  · rw [List.all_cons, List.all_nil, Bool.and_true]
  · rename_i hnone
    rw [Bool.or_eq_true, not_or] at hnone
    exact iff_of_true rfl (hfilter.mpr ⟨fun h => absurd h hnone.1, fun h => absurd h hnone.2⟩)

theorem membersCondition_iff :
    (if data.organizationMembers = [] then []
      else [fun u : User => data.organizationMembers.any fun user => (db.advisors u.pk).contains user]).all
        (fun condition => condition u) = true ↔
    OneOf (data.organizationMembers.map fun user => (true, user ∈ db.advisors u.pk)) := by
  cases hmembers : data.organizationMembers with
  | nil => simp [OneOf]
  | cons user users => simp [OneOf]

/-- The filter returns the job seekers of whom each group says something true. -/
theorem mem_filter_iff (waitingPeriodEnd : Int → Int) (hu : u.isJobSeeker = true) {queryset : List User} :
    u ∈ db.filter today data queryset ↔ u ∈ queryset ∧ db.Satisfies today waitingPeriodEnd data u := by
  have hjobSeeker : (data.jobSeeker.toList.map fun pk (u : User) => decide (u.pk = pk)).all
      (fun condition => condition u) = true ↔ ∀ pk ∈ data.jobSeeker, u.pk = pk := by
    cases data.jobSeeker <;> simp
  have hstalled : ∀ l : List User, u ∈ (if data.isStalled then l.filter db.isConsideredStalled else l) ↔
      u ∈ l ∧ AllOf [(data.isStalled, db.isStalled u.pk = true ∧ db.isNotStalledAnymore u.pk ≠ some true)] := by
    intro l
    rw [AllOf]
    cases data.isStalled <;> simp [FilteredDb.isConsideredStalled]
  have happend : ∀ a b c d : List (User → Bool), (a ++ b ++ c ++ d).all (fun condition => condition u) = true ↔
      a.all (fun condition => condition u) = true ∧ b.all (fun condition => condition u) = true ∧
        c.all (fun condition => condition u) = true ∧ d.all (fun condition => condition u) = true := by
    intro a b c d
    simp only [List.all_append, Bool.and_eq_true, and_assoc]
  rw [FilteredDb.filter, List.mem_filter, hstalled, eligibility_iff waitingPeriodEnd hu, FilteredDb.filters, happend,
    hjobSeeker, statusCondition_iff waitingPeriodEnd hu, journeyCondition_iff, membersCondition_iff]
  constructor
  · rintro ⟨⟨⟨hmem, heligibility⟩, hstalled⟩, hpk, hstatus, hjourney, hmembers⟩
    exact ⟨hmem, hpk, heligibility, hstatus, hjourney, hstalled, hmembers⟩
  · rintro ⟨hmem, hpk, heligibility, hstatus, hjourney, hstalled, hmembers⟩
    exact ⟨⟨⟨hmem, heligibility⟩, hstalled⟩, hpk, hstatus, hjourney, hmembers⟩

end Filter

end Itou.Eligibility
