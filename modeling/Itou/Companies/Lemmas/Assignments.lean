import Mathlib.Data.List.Induction
import Itou.Companies.Assignments

/-!
# What the calls leave in the assignments

One call changes the row of its key only. A history leaves in it the creation of its first call and the rest of its last
one. A merge takes the creation and the last action of both rows.
-/

namespace Itou.Companies

open Itou.Lib

variable {t t' : Assignments} {key toDelete toKeep : AssignmentKey} {action a : Action} {actions : List Action}
  {calls : List (AssignmentKey × Action)} {d k r : JobSeekerAssignment}

/-! ## One call -/

theorem upsertAssignment_isSome_iff :
    (upsertAssignment t key action).isSome ↔
      key.jobSeeker.isJobSeeker = true ∧ (key.professional.isProfessional = true → action.isRefused key = false) := by
  obtain ⟨t', h, -⟩ := KeyedTable.insertOrModify_eq_some (t := t) (r := action.assignment t.freshPk key)
    (f := action.write) (h := fun _ => ⟨rfl, rfl⟩) rfl
  unfold upsertAssignment
  cases key.jobSeeker.isJobSeeker <;> cases key.professional.isProfessional <;> cases action.isRefused key <;>
    simp [h]

/-- What a call changes. -/
theorem row_upsertAssignment (h : upsertAssignment t key action = some t') :
    (t'.row key.columns).map (·.action) =
        (if key.professional.isProfessional then
          some (((t.row key.columns).map (·.action)).elim action (·.followedBy action))
        else (t.row key.columns).map (·.action)) ∧
      ∀ c, c ≠ key.columns → t'.row c = t.row c := by
  have haccepted := upsertAssignment_isSome_iff.mp (Option.isSome_of_eq_some h)
  rw [upsertAssignment, if_neg (by simp [haccepted.1])] at h
  cases hprofessional : key.professional.isProfessional with
  | false =>
      rw [hprofessional, if_pos (by rfl)] at h
      cases h
      exact ⟨rfl, fun _ _ => rfl⟩
  | true =>
      rw [hprofessional, if_neg (by simp), if_neg (by simp [haccepted.2 hprofessional])] at h
      obtain ⟨t₁, heq, hrow, hothers⟩ := KeyedTable.insertOrModify_eq_some (t := t)
        (r := action.assignment t.freshPk key) (f := action.write) (h := fun _ => ⟨rfl, rfl⟩) rfl
      obtain rfl : t₁ = t' := Option.some.inj (heq.symm.trans h)
      refine ⟨?_, hothers⟩
      rw [show key.columns = JobSeekerAssignment.columns.key (action.assignment t.freshPk key) from rfl, hrow]
      cases t.row (JobSeekerAssignment.columns.key (action.assignment t.freshPk key)) <;> rfl

/-! ## Histories -/

theorem summary_concat : summary (actions ++ [a]) = some ((summary actions).elim a (·.followedBy a)) := by
  rw [summary, List.foldl_append]
  rfl

theorem summary_eq_some : summary actions = some a ↔
    ∃ first ∈ actions.head?, ∃ last ∈ actions.getLast?, first.followedBy last = a := by
  induction actions using List.reverseRecOn generalizing a with
  | nil => simp [summary]
  | append_singleton actions next ih =>
      rw [summary_concat]
      cases hsummary : summary actions with
      | none =>
          cases actions with
          | nil => simp [Action.followedBy]
          | cons first rest =>
              have hlast := List.getLast?_eq_some_getLast (List.cons_ne_nil first rest)
              exact absurd hsummary (Option.ne_none_iff_exists'.mpr ⟨_, ih.mpr ⟨first, rfl, _, hlast, rfl⟩⟩)
      | some s =>
          obtain ⟨first, hfirst, last, -, rfl⟩ := ih.mp hsummary
          have hhead : (actions ++ [next]).head? = some first := by
            rw [List.head?_append, Option.mem_def.mp hfirst]
            rfl
          simp [hhead, Action.followedBy]

theorem applyCalls_concat {call : AssignmentKey × Action} :
    applyCalls t (calls ++ [call]) = (applyCalls t calls).bind fun t' => upsertAssignment t' call.1 call.2 := by
  rw [applyCalls, List.foldlM_append]
  simp [applyCalls]

theorem actionsOn_concat {call : AssignmentKey × Action} :
    actionsOn key (calls ++ [call]) = if call.1 = key then actionsOn key calls ++ [call.2] else actionsOn key calls := by
  unfold actionsOn
  rw [List.filter_append, List.map_append]
  split
  · rename_i h
    rw [List.filter_cons_of_pos (by simpa using h)]
    rfl
  · rename_i h
    rw [List.filter_cons_of_neg (by simpa using h), List.filter_nil, List.map_nil, List.append_nil]

/-- A row that the table did not have is made by the history of its key. -/
theorem row_applyCalls (hkeys : ∀ call ∈ calls, call.1.columns = key.columns → call.1 = key)
    (hnew : t.row key.columns = none) (h : applyCalls t calls = some t') :
    (t'.row key.columns).map (·.action) =
      if key.professional.isProfessional then summary (actionsOn key calls) else none := by
  induction calls using List.reverseRecOn generalizing t' with
  | nil =>
      cases h
      simp [hnew, actionsOn, summary]
  | append_singleton calls call ih =>
      rw [applyCalls_concat, Option.bind_eq_some_iff] at h
      obtain ⟨t₁, hcalls, hcall⟩ := h
      have hrow := ih (fun c hc => hkeys c (List.mem_append_left _ hc)) hcalls
      by_cases hkey : call.1 = key
      · subst hkey
        rw [(row_upsertAssignment hcall).1, hrow, actionsOn_concat, if_pos rfl]
        split
        · exact summary_concat.symm
        · rfl
      · have hne : call.1.columns ≠ key.columns := fun heq =>
          hkey (hkeys call (List.mem_append_right _ (List.mem_singleton.mpr rfl)) heq)
        rw [(row_upsertAssignment hcall).2 _ hne.symm, hrow, actionsOn_concat, if_neg hkey]

theorem applyCalls_isSome_iff : (applyCalls t calls).isSome ↔ ∀ call ∈ calls,
    call.1.jobSeeker.isJobSeeker = true ∧
      (call.1.professional.isProfessional = true → call.2.isRefused call.1 = false) := by
  induction calls using List.reverseRecOn with
  | nil => simp [applyCalls]
  | append_singleton calls call ih =>
      rw [applyCalls_concat]
      cases hcalls : applyCalls t calls with
      | none =>
          rw [hcalls] at ih
          simp only [Option.bind_none, Option.isSome_none, Bool.false_eq_true, false_iff] at ih ⊢
          exact fun hall => ih fun c hc => hall c (List.mem_append_left _ hc)
      | some t₁ =>
          rw [hcalls] at ih
          rw [Option.bind_some, upsertAssignment_isSome_iff]
          simp only [List.mem_append, List.mem_singleton, or_imp, forall_and, forall_eq]
          have hall := ih.mp rfl
          exact ⟨fun h => ⟨⟨fun c hc => (hall c hc).1, h.1⟩, fun c hc => (hall c hc).2, h.2⟩, fun h => ⟨h.1.2, h.2.2⟩⟩

/-! ## First and last calls -/

theorem head?_actionsOn {call : AssignmentKey × Action} (h : call ∈ calls.head?) (hkey : call.1 = key) :
    call.2 ∈ (actionsOn key calls).head? := by
  cases calls with
  | nil => cases h
  | cons first rest =>
      obtain rfl : first = call := Option.some.inj h
      rw [actionsOn, List.filter_cons_of_pos (by simpa using hkey)]
      rfl

theorem getLast?_actionsOn {call : AssignmentKey × Action} (h : call ∈ calls.getLast?) (hkey : call.1 = key) :
    call.2 ∈ (actionsOn key calls).getLast? := by
  cases calls using List.reverseRecOn with
  | nil => cases h
  | append_singleton rest last =>
      rw [List.getLast?_concat] at h
      obtain rfl : last = call := Option.some.inj h
      rw [actionsOn_concat, if_pos hkey, List.getLast?_concat]
      rfl

theorem mem_actionsOn : a ∈ actionsOn key calls ↔ (key, a) ∈ calls := by
  unfold actionsOn
  rw [List.mem_map]
  constructor
  · rintro ⟨call, hcall, rfl⟩
    obtain ⟨hcall, hkey⟩ := List.mem_filter.mp hcall
    have hkey : call.1 = key := by simpa using hkey
    exact hkey ▸ hcall
  · intro h
    exact ⟨(key, a), List.mem_filter.mpr ⟨h, by simp⟩, rfl⟩

theorem Chronological.first_le (h : Chronological calls) {first call : AssignmentKey × Action}
    (hfirst : first ∈ calls.head?) (hcall : call ∈ calls) : first.2.createdAt ≤ call.2.createdAt := by
  cases calls with
  | nil => cases hcall
  | cons c rest =>
      obtain rfl : c = first := Option.some.inj hfirst
      rcases List.mem_cons.mp hcall with rfl | hcall
      · exact Int.le_refl _
      · exact ((List.pairwise_cons.mp h).1 call hcall).1

theorem Chronological.le_last (h : Chronological calls) {last call : AssignmentKey × Action}
    (hlast : last ∈ calls.getLast?) (hcall : call ∈ calls) : call.2.updatedAt ≤ last.2.updatedAt := by
  cases calls using List.reverseRecOn with
  | nil => cases hcall
  | append_singleton rest c =>
      rw [List.getLast?_concat] at hlast
      obtain rfl : c = last := Option.some.inj hlast
      rcases List.mem_append.mp hcall with hcall | hcall
      · exact ((List.pairwise_append.mp h).2.2 call hcall c (List.mem_singleton.mpr rfl)).2
      · exact Int.le_of_eq (congrArg (·.2.updatedAt) (List.mem_singleton.mp hcall))

/-! ## Two rows -/

/-- The merge leaves the row to keep with the values of both. -/
theorem row_mergeAssignments (hd : t.row toDelete.columns = some d) (hk : t.row toKeep.columns = some k)
    (hne : toDelete.columns ≠ toKeep.columns) :
    (mergeAssignments t d k).row toKeep.columns = some (mergeJobSeekerAssignments d k) := by
  obtain ⟨hdmem, hdkey⟩ := KeyedTable.row_eq_some.mp hd
  obtain ⟨hkmem, hkkey⟩ := KeyedTable.row_eq_some.mp hk
  have hpk : k.pk ≠ d.pk := fun heq =>
    hne (hdkey.symm.trans ((congrArg _ (KeyedTable.eq_of_pk hdmem hkmem heq.symm)).trans hkkey))
  rw [mergeAssignments, KeyedTable.row_delete, KeyedTable.row_modify, hk, Option.map_some, if_pos (by simp),
    Option.filter_some_pos (by simp [JobSeekerAssignment.take, hpk])]
  rfl

/-- The last action is that of the row to keep when it is the later one. -/
theorem action_merge_of_lt (h : d.action.updatedAt < k.action.updatedAt) :
    (mergeJobSeekerAssignments d k).action =
      ⟨min d.action.createdAt k.action.createdAt, k.action.updatedAt, k.action.lastActionKind,
        k.action.assignedToUnknownAdvisor⟩ := by
  have hlast : d.updatedAt < k.updatedAt := h
  rw [mergeJobSeekerAssignments, if_pos hlast]
  rfl

/-- Else it is that of the other one, but for the advisor. -/
theorem action_merge_of_le (h : k.action.updatedAt ≤ d.action.updatedAt) :
    (mergeJobSeekerAssignments d k).action =
      ⟨min d.action.createdAt k.action.createdAt, d.action.updatedAt, d.action.lastActionKind,
        k.action.assignedToUnknownAdvisor⟩ := by
  have hlast : ¬ d.updatedAt < k.updatedAt := Int.not_lt.mpr h
  rw [mergeJobSeekerAssignments, if_neg hlast]
  rfl

/-- Keeping the one or the other row matters for the advisor, and for the kind when the dates are the same. -/
theorem action_merge_comm_iff : (mergeJobSeekerAssignments d k).action = (mergeJobSeekerAssignments k d).action ↔
    d.action.assignedToUnknownAdvisor = k.action.assignedToUnknownAdvisor ∧
      (d.action.updatedAt = k.action.updatedAt → d.action.lastActionKind = k.action.lastActionKind) := by
  rcases Int.lt_trichotomy d.action.updatedAt k.action.updatedAt with hlt | heq | hlt
  · rw [action_merge_of_lt hlt, action_merge_of_le (Int.le_of_lt hlt)]
    simp [Int.min_comm, Int.ne_of_lt hlt, eq_comm]
  · rw [action_merge_of_le (Int.le_of_eq heq.symm), action_merge_of_le (Int.le_of_eq heq)]
    simp only [Action.mk.injEq, Int.min_comm, heq, true_and, forall_const]
    rw [and_comm, eq_comm (a := k.action.assignedToUnknownAdvisor)]
  · rw [action_merge_of_le (Int.le_of_lt hlt), action_merge_of_lt hlt]
    simp [Int.min_comm, Int.ne_of_gt hlt, eq_comm]

section Histories

variable (hchronological : Chronological calls) (hcalls : ∀ call ∈ calls, call.1 = toDelete ∨ call.1 = toKeep)
  {firstDeleted lastDeleted firstKept lastKept : Action} {first last : AssignmentKey × Action}
  (hfirstDeleted : firstDeleted ∈ (actionsOn toDelete calls).head?)
  (hlastDeleted : lastDeleted ∈ (actionsOn toDelete calls).getLast?)
  (hfirstKept : firstKept ∈ (actionsOn toKeep calls).head?)
  (hlastKept : lastKept ∈ (actionsOn toKeep calls).getLast?)
  (hfirst : first ∈ calls.head?) (hlast : last ∈ calls.getLast?)

include hchronological hcalls hfirstDeleted hfirstKept hfirst in
/-- The history begins when the first of both rows is created. -/
theorem createdAt_first : min firstDeleted.createdAt firstKept.createdAt = first.2.createdAt := by
  have hdeleted := hchronological.first_le hfirst (mem_actionsOn.mp (List.mem_of_mem_head? hfirstDeleted))
  have hkept := hchronological.first_le hfirst (mem_actionsOn.mp (List.mem_of_mem_head? hfirstKept))
  rcases hcalls first (List.mem_of_mem_head? hfirst) with hkey | hkey
  · obtain rfl : first.2 = firstDeleted :=
      Option.some.inj ((Option.mem_def.mp (head?_actionsOn hfirst hkey)).symm.trans hfirstDeleted)
    exact Int.min_eq_left hkept
  · obtain rfl : first.2 = firstKept :=
      Option.some.inj ((Option.mem_def.mp (head?_actionsOn hfirst hkey)).symm.trans hfirstKept)
    exact Int.min_eq_right hdeleted

include hchronological hcalls hlastDeleted hlastKept hlast in
/-- It ends with the last call on one of the keys, and with the latest one. -/
theorem last_eq : (last.2 = lastDeleted ∧ lastKept.updatedAt ≤ lastDeleted.updatedAt) ∨
    (last.2 = lastKept ∧ lastDeleted.updatedAt ≤ lastKept.updatedAt) := by
  have hdeleted := hchronological.le_last hlast (mem_actionsOn.mp (List.mem_of_mem_getLast? hlastDeleted))
  have hkept := hchronological.le_last hlast (mem_actionsOn.mp (List.mem_of_mem_getLast? hlastKept))
  rcases hcalls last (List.mem_of_mem_getLast? hlast) with hkey | hkey
  · obtain rfl : last.2 = lastDeleted :=
      Option.some.inj ((Option.mem_def.mp (getLast?_actionsOn hlast hkey)).symm.trans hlastDeleted)
    exact Or.inl ⟨rfl, hkept⟩
  · obtain rfl : last.2 = lastKept :=
      Option.some.inj ((Option.mem_def.mp (getLast?_actionsOn hlast hkey)).symm.trans hlastKept)
    exact Or.inr ⟨rfl, hdeleted⟩

end Histories

/-! ## Rows that a history made -/

/-- The calls made on a key leave a row in a table that had none: there is a first call and a last one. -/
theorem exists_first_last (hkeys : ∀ call ∈ calls, call.1 = toDelete ∨ call.1 = toKeep)
    (hne : toDelete.columns ≠ toKeep.columns) {key : AssignmentKey} (hkey : key = toDelete ∨ key = toKeep)
    (hnew : t.row key.columns = none) (h : applyCalls t calls = some t') {r : JobSeekerAssignment}
    (hr : t'.row key.columns = some r) :
    key.professional.isProfessional = true ∧ key.jobSeeker.isJobSeeker = true ∧
      ∃ first ∈ (actionsOn key calls).head?, ∃ last ∈ (actionsOn key calls).getLast?,
        first.followedBy last = r.action := by
  have hsame : ∀ call ∈ calls, call.1.columns = key.columns → call.1 = key := by
    intro call hcall heq
    rcases hkeys call hcall with hc | hc <;> rcases hkey with rfl | rfl
    · exact hc
    · exact absurd (hc ▸ heq) hne
    · exact absurd (hc ▸ heq).symm hne
    · exact hc
  have hrow := row_applyCalls hsame hnew h
  rw [hr] at hrow
  split at hrow
  · rename_i hprofessional
    obtain ⟨first, hfirst, last, hlast, heq⟩ := summary_eq_some.mp hrow.symm
    have hmem := mem_actionsOn.mp (List.mem_of_mem_head? hfirst)
    have haccepted := applyCalls_isSome_iff.mp (Option.isSome_of_eq_some h) _ hmem
    exact ⟨hprofessional, haccepted.1, first, hfirst, last, hlast, heq⟩
  · cases hrow

/-- The calls are accepted on the key to keep exactly when it has the organization that they need. -/
theorem replay_isSome_iff (hprofessional : toKeep.professional.isProfessional = true)
    (hjobSeeker : toKeep.jobSeeker.isJobSeeker = true) : (applyCalls t (replayOn toKeep calls)).isSome ↔
      (toKeep.organization = .nobody → ∀ call ∈ calls, call.2.assignedToUnknownAdvisor = false) := by
  rw [applyCalls_isSome_iff, replayOn, List.forall_mem_map]
  simp only [hprofessional, hjobSeeker, true_and, forall_const, Action.isRefused]
  by_cases horganization : toKeep.organization = .nobody
  · simp [horganization]
  · simp [horganization]

/-- What a replay leaves. -/
theorem row_replay (hprofessional : toKeep.professional.isProfessional = true)
    (hnew : t.row toKeep.columns = none) (h : applyCalls t (replayOn toKeep calls) = some t')
    {first last : AssignmentKey × Action} (hfirst : first ∈ calls.head?) (hlast : last ∈ calls.getLast?) :
    (t'.row toKeep.columns).map (·.action) = some (first.2.followedBy last.2) := by
  have hkeys : ∀ call ∈ replayOn toKeep calls, call.1 = toKeep := by
    intro call hcall
    obtain ⟨c, -, rfl⟩ := List.mem_map.mp hcall
    rfl
  have hactions : actionsOn toKeep (replayOn toKeep calls) = calls.map Prod.snd := by
    rw [actionsOn, List.filter_eq_self.mpr fun call hcall => decide_eq_true (hkeys call hcall), replayOn, List.map_map]
    rfl
  rw [row_applyCalls (fun call hcall _ => hkeys call hcall) hnew h, if_pos hprofessional, hactions]
  refine summary_eq_some.mpr ⟨first.2, ?_, last.2, ?_, rfl⟩
  · rw [List.head?_map, Option.mem_def.mp hfirst]
    rfl
  · rw [List.getLast?_map, Option.mem_def.mp hlast]
    rfl

end Itou.Companies
