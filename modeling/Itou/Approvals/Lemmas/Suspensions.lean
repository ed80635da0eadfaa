import Itou.Approvals.Lemmas.Hiring
import Itou.Approvals.Suspensions
import Mathlib.Algebra.BigOperators.Ring.Finset

/-!
# Days left, suspended and given back

The per-object remainder of the code is the number of days of a range from today on. What the statements on a suspension
do to its table and to the end of its approval.
-/

namespace Itou.Approvals

open Itou.Lib

/-! ## Remainders -/

section Remainder

variable {today : Int} {a : Approval} {suspensionSet : List Suspension}

theorem getObjRemainder_eq_card {startAt endAt : Int} (h : startAt ≤ endAt) :
    getObjRemainder today startAt endAt = ((daysBetween (max today startAt) endAt).card : Int) := by
  rw [card_daysBetween, getObjRemainder]
  omega

theorem Fits.pairwise_days (h : Fits a suspensionSet) :
    (suspensionSet.map fun s => s.days).Pairwise Disjoint := by
  rw [List.pairwise_map]
  exact h.disjoint.imp fun hapart => disjoint_daysBetween_of_lt hapart

theorem Fits.sum_remainder (h : Fits a suspensionSet) :
    (suspensionSet.map fun s => getObjRemainder today s.startAt s.endAt).sum =
      (((suspensionSet.map fun s => s.days).map
        fun r => (daysBetween (max today a.startAt) a.endAt ∩ r).card).sum : Int) := by
  rw [List.map_map, Nat.cast_list_sum, List.map_map]
  refine congrArg List.sum (List.map_congr_left fun s hs => ?_)
  obtain ⟨hstart, hend⟩ := h.contained s hs
  rw [getObjRemainder_eq_card (h.ordered s hs)]
  simp only [Function.comp_apply, Period.days, daysBetween_inter_of_le hstart hend today]

/-- The remainder counts the days from today on that belong to no suspension. -/
theorem Fits.remainder_eq_card (h : Fits a suspensionSet) (today : Int) (ha : a.startAt ≤ a.endAt) :
    a.remainder today suspensionSet = ((a.usableDays today suspensionSet).card : Int) := by
  have hcard := card_uncovered (S := daysBetween (max today a.startAt) a.endAt) h.pairwise_days
  rw [Approval.remainder, getObjRemainder_eq_card ha, h.sum_remainder, Approval.usableDays]
  omega

/-- A new suspension of the approval, apart from the others, takes more days than it gives. -/
theorem card_usableDays_suspended (a' : Approval) {s : Suspension} (hordered : s.startAt ≤ s.endAt)
    (hcontained : a.startAt ≤ s.startAt ∧ s.startAt ≤ a.endAt)
    (hapart : ∀ o ∈ suspensionSet, o.endAt < s.startAt ∨ s.endAt < o.startAt)
    (hstart : a'.startAt = a.startAt) (hend : a'.endAt = a.endAt + s.duration) :
    (a'.usableDays a'.startAt (s :: suspensionSet)).card < (a.usableDays a.startAt suspensionSet).card := by
  unfold Period.duration at hend
  have hdisjoint : ∀ q ∈ suspensionSet.map fun o => o.days, Disjoint s.days q := by
    rw [List.forall_mem_map]
    exact fun o ho => disjoint_daysBetween_of_lt (hapart o ho).symm
  -- All the days of the suspension are days of the approval, once it is pushed back.
  have hdays : daysBetween (max a'.startAt a'.startAt) a'.endAt ∩ s.days = s.days := by
    rw [Finset.inter_eq_right, Period.days]
    exact Finset.Icc_subset_Icc (by omega) (by omega)
  have hwider : daysBetween (max a.startAt a.startAt) a.endAt ⊆ daysBetween (max a'.startAt a'.startAt) a'.endAt :=
    Finset.Icc_subset_Icc (by omega) (by omega)
  have hcovers := card_uncovered_cons (S := daysBetween (max a'.startAt a'.startAt) a'.endAt) hdisjoint
  have hpushed := card_uncovered_le_of_subset (suspensionSet.map fun o => o.days) hwider
  have hcard : s.days.card = (s.endAt + 1 - s.startAt).toNat := card_daysBetween _ _
  rw [hdays] at hcovers
  simp only [card_daysBetween] at hpushed
  simp only [Approval.usableDays, List.map_cons]
  omega

end Remainder

/-! ## Statements on a suspension -/

variable {db db' : Db} {now : DateTime} {k : Nat} {s : Suspension} {a : Approval}

theorem suspensionSet_insert (hk : k ∉ db.suspensions) (approvals : Table Approval) :
    Db.suspensionSet { db with approvals, suspensions := db.suspensions.insert k s } s.approvalId =
      s :: db.suspensionSet s.approvalId := by
  rw [Db.suspensionSet, Table.rows_insert, Table.erase_of_notMem hk, List.filter_cons_of_pos (by simp)]
  rfl

/-- What an accepted `INSERT` of a suspension has checked and done. -/
theorem exec_insert_suspension (h : db.exec now (.suspension (.insert k s)) = some db')
    (ha : db.approvals.lookup s.approvalId = some a) :
    k ∉ db.suspensions ∧ Suspension.constraints now db.suspensions s = true ∧ a.startAt < a.endAt + s.duration ∧
      db' = { db with
        approvals := db.approvals.insert s.approvalId { a with endAt := a.endAt + s.duration, updatedAt := now }
        suspensions := db.suspensions.insert k s } := by
  simp only [Db.exec, Option.map_eq_some_iff, Prod.exists] at h
  obtain ⟨approvals, suspensions, h, rfl⟩ := h
  obtain ⟨fired, hexec, htrigger, hnew⟩ := execOn_eq_some h
  simp only [RowOp.exec, Option.ite_none_left_eq_some, Option.some.injEq, Prod.mk.injEq] at hexec
  obtain ⟨hk, rfl, rfl⟩ := hexec
  change pushEndAt now db.approvals s.approvalId s.duration = some approvals at htrigger
  simp only [pushEndAt, ha, Option.ite_none_right_eq_some, Option.some.injEq] at htrigger
  obtain ⟨hcheck, rfl⟩ := htrigger
  have hconstraints := (hnew s rfl).2
  simp only [RowOp.key, Table.erase_of_notMem hk] at hconstraints
  exact ⟨hk, hconstraints, hcheck, rfl⟩

/-- The exclusion constraint, on the suspensions of the approval. -/
theorem disjoint_of_constraints (h : Suspension.constraints now db.suspensions s = true) :
    ∀ o ∈ db.suspensionSet s.approvalId, o.endAt < s.startAt ∨ s.endAt < o.startAt := by
  intro o ho
  simp only [Db.suspensionSet, List.mem_filter, decide_eq_true_eq] at ho
  simp only [Suspension.constraints, Bool.and_eq_true, List.all_eq_true, Bool.or_eq_true,
    decide_eq_true_eq] at h
  rcases h.2 o ho.1 with (happroval | hbefore) | hafter
  · exact absurd ho.2 happroval
  · exact Or.inl hbefore
  · exact Or.inr hafter

/-- The `DELETE` of a suspension takes its duration back, when the approval can still have these dates. -/
theorem exec_delete_suspension (hs : db.suspensions.lookup k = some s)
    (ha : db.approvals.lookup s.approvalId = some a) (hcheck : a.startAt < a.endAt - s.duration) :
    db.exec now (.suspension (.delete k)) = some { db with
      approvals := db.approvals.insert s.approvalId { a with endAt := a.endAt + -s.duration, updatedAt := now }
      suspensions := db.suspensions.erase k } := by
  have htrigger : Suspension.updateApprovalEndAt now db.approvals (.delete s) =
      some (db.approvals.insert s.approvalId { a with endAt := a.endAt + -s.duration, updatedAt := now }) := by
    change pushEndAt now db.approvals s.approvalId (-s.duration) = _
    simp only [pushEndAt, ha]
    exact if_pos (by omega)
  simp only [Db.exec, execOn, RowOp.exec, hs, Option.map_some, RowOp.new, htrigger]
  rfl

/-! ## One more suspension -/

section Suspends

variable {addMonths : Int → Int → Int} {lastHiringStartAt : Option Int} {reasonExplanation : String}

/-- The dates that `clean` has checked against the approval. -/
theorem dates_of_suspends (h : db.Suspends addMonths now lastHiringStartAt reasonExplanation k s a db') :
    s.startAt ≤ s.endAt ∧ a.startAt ≤ s.startAt ∧ s.startAt ≤ a.endAt := by
  have hclean := h.clean
  simp only [Db.cleanSuspension, Bool.and_eq_true, decide_eq_true_eq] at hclean
  exact ⟨hclean.1.1.1.1.2, hclean.1.1.2, hclean.1.2⟩

theorem suspends_eq (h : db.Suspends addMonths now lastHiringStartAt reasonExplanation k s a db') :
    db'.approvals.lookup s.approvalId = some { a with endAt := a.endAt + s.duration, updatedAt := now } ∧
      db'.suspensions.lookup k = some s ∧
        db'.suspensionSet s.approvalId = s :: db.suspensionSet s.approvalId := by
  obtain ⟨hk, -, -, rfl⟩ := exec_insert_suspension h.inserted h.approval
  exact ⟨AList.lookup_insert _, AList.lookup_insert _, suspensionSet_insert hk _⟩

theorem card_usableDays_of_suspends (h : db.Suspends addMonths now lastHiringStartAt reasonExplanation k s a db') :
    db'.usableDays s.approvalId ≠ db.usableDays s.approvalId := by
  obtain ⟨hordered, hcontained⟩ := dates_of_suspends h
  obtain ⟨-, hconstraints, -, -⟩ := exec_insert_suspension h.inserted h.approval
  obtain ⟨happroval, -, hset⟩ := suspends_eq h
  have hlt := card_usableDays_suspended { a with endAt := a.endAt + s.duration, updatedAt := now }
    hordered hcontained (disjoint_of_constraints hconstraints) rfl rfl
  simp only [Db.usableDays, happroval, h.approval, hset, Option.map_some, ne_eq, Option.some.injEq]
  exact Nat.ne_of_lt hlt

/-- As `remainder` counts them on the first day of the approval, exactly one day is lost. -/
theorem remainder_of_suspends (h : db.Suspends addMonths now lastHiringStartAt reasonExplanation k s a db')
    {a' : Approval} (ha' : db'.approvals.lookup s.approvalId = some a') :
    a'.remainder a'.startAt (db'.suspensionSet s.approvalId) =
      a.remainder a.startAt (db.suspensionSet s.approvalId) - 1 := by
  obtain ⟨hordered, hstart, hend⟩ := dates_of_suspends h
  obtain ⟨happroval, -, hset⟩ := suspends_eq h
  rw [happroval, Option.some.injEq] at ha'
  subst ha'
  simp only [Approval.remainder, hset, List.map_cons, List.sum_cons, getObjRemainder, Period.duration]
  omega

theorem restores_of_suspends (h : db.Suspends addMonths now lastHiringStartAt reasonExplanation k s a db') :
    db.Restores db' k s := by
  intro now'
  obtain ⟨happroval, hrow, -⟩ := suspends_eq h
  have hcheck := h.startBeforeEnd
  refine ⟨_, exec_delete_suspension hrow happroval (by simpa using hcheck), ?_⟩
  simp [h.approval]

end Suspends

/-! ## The end of a suspension -/

theorem inProgress_of_suspensionToEnd {today : Int} {id : Nat} (h : db.suspensionToEnd today id = some (k, s)) :
    s.startAt ≤ today ∧ today ≤ s.endAt := by
  simp only [Db.suspensionToEnd, Option.filter_eq_some_iff, Db.lastInProgressSuspension] at h
  have hmem := List.mem_of_getLast? h.1
  simp only [mem_orderBy, List.mem_filter, Bool.and_eq_true, decide_eq_true_eq] at hmem
  exact ⟨hmem.2.1.2, hmem.2.2⟩

theorem exec_suspension_rows {op : RowOp Suspension} (h : db.exec now (.suspension op) = some db') :
    ∃ fired, op.exec db.suspensions = some (db'.suspensions, fired) := by
  simp only [Db.exec, Option.map_eq_some_iff, Prod.exists] at h
  obtain ⟨approvals, suspensions, h, rfl⟩ := h
  obtain ⟨fired, hexec, -, -⟩ := execOn_eq_some h
  exact ⟨fired, hexec⟩

/-- What is left of the suspension that a hiring ends. -/
theorem lookup_unsuspend {id : Nat} {hiringStartAt : Int} (hend : db.suspensionToEnd now.date id = some (k, s))
    (h : db.unsuspend now id hiringStartAt = some db') :
    db'.suspensions.lookup k = if s.startAt = hiringStartAt then none else some { s with endAt := hiringStartAt - 1 } := by
  obtain ⟨hrow, -⟩ := lookup_of_suspensionToEnd hend
  simp only [Db.unsuspend, hend] at h
  split at h
  · rename_i hstart
    obtain ⟨fired, hexec⟩ := exec_suspension_rows h
    simp only [RowOp.exec, hrow, Option.map_some, Option.some.injEq, Prod.mk.injEq] at hexec
    rw [if_pos hstart, ← hexec.1]
    exact AList.lookup_erase _ _
  · rename_i hstart
    obtain ⟨fired, hexec⟩ := exec_suspension_rows h
    simp only [RowOp.exec, hrow, Option.map_some, Option.some.injEq, Prod.mk.injEq] at hexec
    rw [if_neg hstart, ← hexec.1]
    exact AList.lookup_insert _

/-- A hiring only shortens the suspension exactly when it is not more than one day after its end. -/
theorem onlyShortens_unsuspend_iff {id : Nat} {hiringStartAt : Int}
    (hend : db.suspensionToEnd now.date id = some (k, s)) (htoday : now.date ≤ hiringStartAt)
    (h : db.unsuspend now id hiringStartAt = some db') :
    db.OnlyShortens db' k s hiringStartAt ↔ hiringStartAt ≤ s.endAt + 1 := by
  obtain ⟨hrow, hid⟩ := lookup_of_suspensionToEnd hend
  obtain ⟨hstarted, hinprogress⟩ := inProgress_of_suspensionToEnd hend
  have hlookup := lookup_unsuspend hend h
  by_cases hstart : s.startAt = hiringStartAt
  · rw [if_pos hstart] at hlookup
    refine iff_of_true ⟨fun s' hs' => ?_, fun a ha a' ha' => ?_⟩ (by omega)
    · rw [hlookup] at hs'
      cases hs'
    · rw [hid] at ha ha'
      obtain ⟨a₁, ha₁, -, hendAt⟩ := unsuspend_row h ha
      obtain rfl : a₁ = a' := Option.some.inj (ha₁.symm.trans ha')
      simp only [hend, if_pos hstart] at hendAt
      have hback : a₁.endAt = a.endAt - (s.endAt - s.startAt) := hendAt
      omega
  · rw [if_neg hstart] at hlookup
    constructor
    · intro hshortens
      obtain ⟨-, -, hle, -⟩ := hshortens.suspension _ hlookup
      change hiringStartAt - 1 ≤ s.endAt at hle
      omega
    · intro hle
      refine ⟨fun s' hs' => ?_, fun a ha a' ha' => ?_⟩
      · rw [hlookup, Option.mem_some] at hs'
        subst hs'
        exact ⟨rfl, le_rfl, by change hiringStartAt - 1 ≤ s.endAt; omega, Int.sub_one_lt_of_le le_rfl,
          by change s.startAt ≤ hiringStartAt - 1; omega⟩
      · rw [hid] at ha ha'
        obtain ⟨a₁, ha₁, -, hendAt⟩ := unsuspend_row h ha
        obtain rfl : a₁ = a' := Option.some.inj (ha₁.symm.trans ha')
        simp only [hend, if_neg hstart] at hendAt
        have hback : a₁.endAt = a.endAt - (s.endAt - (hiringStartAt - 1)) := hendAt
        omega

end Itou.Approvals
