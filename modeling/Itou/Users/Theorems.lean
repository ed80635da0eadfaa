import Itou.Users.Lemmas.Merges

/-!
# What the command loses

The groups have the accounts that they should have, and a run merges no other ones. It ends, and nothing is lost, exactly
when each merged account has nothing but what is linked to the target and what goes with it.
-/

namespace Itou.DeduplicateJobSeekers

open Itou.Lib Itou.Lib.Deletions Itou.JobApplications
open Itou.Relations (Model Relation)

variable {db s s' : Database} {merged : List (Nat × Nat)} {a b target : Account} {duplicates us : List Account}
  {pk : Nat} {nir : String}

/-! ## The accounts -/

theorem mem_accounts (h : a ∈ accounts db) : a.approvals = approvals db a.pk ∧
    (∃ row ∈ db.rows, row.key = (.user, a.pk) ∧ row.columns = a.user) ∧
      ∃ row ∈ db.rows, row.key = (.jobSeekerProfile, a.pk) ∧ row.columns = a.profile := by
  obtain ⟨row, hrow, hloaded⟩ := List.mem_filterMap.mp h
  obtain ⟨hrow, hmodel⟩ := List.mem_filter.mp hrow
  obtain ⟨profile, hfind, rfl⟩ := Option.map_eq_some_iff.mp hloaded
  have hprofile : profile ∈ db.rows := List.mem_of_find?_eq_some hfind
  have hfk : profile.fk .jobSeekerProfileUser = some row.pk := by simpa using List.find?_some hfind
  have hprofileModel : profile.model = .jobSeekerProfile := (model_of_fk (db.formed profile hprofile) hfk).symm
  rw [fk_profile hprofile hprofileModel] at hfk
  exact ⟨rfl, ⟨row, hrow, congrArg (·, row.pk) (of_decide_eq_true hmodel), rfl⟩,
    profile, hprofile, by rw [Row.key, hprofileModel, Option.some.inj hfk], rfl⟩

theorem nodup_accounts (db : Database) : ((accounts db).map Account.pk).Nodup := by
  refine (sublist_map_filterMap (k := Row.pk) (fun row account hload => ?_) _).nodup
    (List.Nodup.map_on (fun x hx y hy hpk => ?_) ((List.Nodup.of_map _ db.nodup).filter _))
  · obtain ⟨profile, -, rfl⟩ := Option.map_eq_some_iff.mp hload
    rfl
  obtain ⟨hx, hxmodel⟩ := List.mem_filter.mp hx
  obtain ⟨hy, hymodel⟩ := List.mem_filter.mp hy
  refine Database.eq_of_key_eq hy hx ?_
  rw [Row.key, Row.key, of_decide_eq_true hxmodel, of_decide_eq_true hymodel, hpk]

theorem fk_approvalUser_ne (h : a ∈ accounts db) (hnone : a.hasApproval = false) :
    ∀ row ∈ db.rows, row.fk .approvalUser ≠ some a.pk := by
  intro row hrow hfk
  rw [Account.hasApproval, (mem_accounts h).1] at hnone
  have hmem : row.pk ∈ approvals db a.pk :=
    List.mem_map.mpr ⟨row, List.mem_filter.mpr ⟨hrow, decide_eq_true hfk⟩, rfl⟩
  rw [Bool.not_eq_false', List.isEmpty_iff] at hnone
  rw [hnone] at hmem
  cases hmem

/-! ## The groups -/

/-- The accounts of a group: at least two, which share a birthdate. -/
structure IsGroup (db : Database) (duplicates : List Account) : Prop where
  mem : ∀ a ∈ duplicates, a ∈ accounts db
  nodup : (duplicates.map Account.pk).Nodup
  birthdate : sameBirthdate duplicates = true
  two : 2 ≤ duplicates.length

theorem sameBirthdate_iff : sameBirthdate duplicates = true ↔
    ∀ a ∈ duplicates, ∀ b ∈ duplicates, a.profile.birthdate = b.profile.birthdate := by
  cases duplicates with
  | nil => simp [sameBirthdate]
  | cons first rest =>
      simp only [sameBirthdate, List.head?_cons, Option.map_some, List.all_eq_true, decide_eq_true_eq, Option.some.injEq]
      constructor
      · exact fun h a ha b hb => (h a ha).trans (h b hb).symm
      · exact fun h a ha => h a ha first List.mem_cons_self

theorem keepDuplicates_spec {kept : List Account} (h : keepDuplicates duplicates = some kept)
    (htwo : 2 ≤ duplicates.length) : kept.Sublist duplicates ∧ sameBirthdate kept = true ∧ 2 ≤ kept.length := by
  rw [keepDuplicates] at h
  split at h
  next hsame =>
    cases h
    exact ⟨List.Sublist.refl _, hsame, htwo⟩
  next =>
    split at h
    next => cases h
    next =>
      dsimp only at h
      split at h
      next => cases h
      next hone =>
        cases h
        refine ⟨List.filter_sublist, sameBirthdate_iff.mpr fun a ha b hb => ?_, ?_⟩
        · have habirthdate := of_decide_eq_true (List.mem_filter.mp ha).2
          have hbbirthdate := of_decide_eq_true (List.mem_filter.mp hb).2
          exact Option.some.inj (habirthdate.trans hbbirthdate.symm)
        · -- The most common birthdate is that of an account.
          cases hmost : (duplicates.map (·.profile.birthdate)).argmax
              fun birthdate => (duplicates.map (·.profile.birthdate)).count birthdate with
          | none =>
              rw [List.argmax_eq_none.mp hmost |> List.map_eq_nil_iff.mp] at htwo
              exact absurd htwo (by decide)
          | some birthdate =>
              obtain ⟨account, haccount, rfl⟩ := List.mem_map.mp (List.argmax_mem hmost)
              simp only [hmost] at hone ⊢
              have hpos : 0 < (duplicates.filter fun a =>
                  decide (some a.profile.birthdate = some account.profile.birthdate)).length :=
                List.length_pos_of_mem (List.mem_filter.mpr ⟨haccount, decide_eq_true rfl⟩)
              omega

theorem two_le_of_mem_duplicated {id : String} (h : id ∈ getDuplicatedPoleEmploiIds db) :
    2 ≤ ((accounts db).filter fun a => decide (a.profile.poleEmploiId = id)).length := by
  have hcount := of_decide_eq_true (List.mem_filter.mp h).2
  rw [List.count, List.countP_map] at hcount
  rw [← List.countP_eq_length_filter]
  exact hcount.trans_le (List.filter_sublist.countP_le (p := (· == id) ∘ fun a : Account => a.profile.poleEmploiId))

theorem isGroup_of_mem {group : String × List Account} (h : group ∈ getDuplicatesByPoleEmploiId db) :
    IsGroup db group.2 ∧ ∀ a ∈ group.2, a.profile.poleEmploiId = group.1 := by
  obtain ⟨all, hall, hkeep⟩ := List.mem_filterMap.mp h
  obtain ⟨kept, hkept, rfl⟩ := Option.map_eq_some_iff.mp hkeep
  obtain ⟨hnodup, hkeys, hgroups⟩ := groupBy_spec (·.profile.poleEmploiId)
    ((accounts db).filter fun account => decide (account.profile.poleEmploiId ∈ getDuplicatedPoleEmploiIds db))
  have hmem : ∀ a ∈ all.2, a ∈ accounts db ∧ a.profile.poleEmploiId = all.1 := by
    intro a ha
    rw [hgroups all hall] at ha
    obtain ⟨ha, hid⟩ := List.mem_filter.mp ha
    exact ⟨(List.mem_filter.mp ha).1, of_decide_eq_true hid⟩
  have htwo : 2 ≤ all.2.length := by
    obtain ⟨account, haccount, hid⟩ := List.mem_map.mp ((hkeys all.1).mp (List.mem_map_of_mem hall))
    have hids : all.1 ∈ getDuplicatedPoleEmploiIds db :=
      hid ▸ of_decide_eq_true (List.mem_filter.mp haccount).2
    rw [hgroups all hall, List.filter_filter]
    refine (two_le_of_mem_duplicated hids).trans (Nat.le_of_eq (congrArg List.length (List.filter_congr fun a _ => ?_)))
    by_cases ha : a.profile.poleEmploiId = all.1
    · simp [ha, hids]
    · simp [ha]
  obtain ⟨hsublist, hsame, htwoKept⟩ := keepDuplicates_spec hkept htwo
  refine ⟨⟨fun a ha => (hmem a (hsublist.subset ha)).1, ?_, hsame, htwoKept⟩,
    fun a ha => (hmem a (hsublist.subset ha)).2⟩
  refine (hsublist.map Account.pk).nodup ?_
  rw [hgroups all hall]
  exact ((List.filter_sublist.trans List.filter_sublist).map Account.pk).nodup (nodup_accounts db)

theorem eq_of_pk_eq (hnodup : (duplicates.map Account.pk).Nodup) (ha : a ∈ duplicates) (hb : b ∈ duplicates)
    (h : a.pk = b.pk) : a = b :=
  List.inj_on_of_nodup_map hnodup ha hb h

theorem nodup_ids (db : Database) : ((getDuplicatesByPoleEmploiId db).map Prod.fst).Nodup := by
  refine (sublist_map_filterMap (k := Prod.fst) (fun group kept hkept => ?_) _).nodup
    (groupBy_spec (fun a : Account => a.profile.poleEmploiId) _).1
  obtain ⟨duplicates, -, rfl⟩ := Option.map_eq_some_iff.mp hkept
  rfl

/-- An account is in one group. -/
theorem eq_group {group group' : String × List Account} (h : group ∈ getDuplicatesByPoleEmploiId db)
    (h' : group' ∈ getDuplicatesByPoleEmploiId db) (ha : a ∈ group.2) (hb : b ∈ group'.2) (hpk : a.pk = b.pk) :
    group = group' := by
  obtain ⟨hgroup, hid⟩ := isGroup_of_mem h
  obtain ⟨hgroup', hid'⟩ := isGroup_of_mem h'
  obtain rfl := eq_of_pk_eq (nodup_accounts db) (hgroup.mem a ha) (hgroup'.mem b hb) hpk
  exact List.inj_on_of_nodup_map (nodup_ids db) h h' ((hid a ha).symm.trans (hid' a hb))

/-- What is taken from the accounts of each group, once an account is taken once in its group. -/
theorem nodup_flatMap_groups {pks : List Account → List Nat} (db : Database)
    (hnodup : ∀ group ∈ getDuplicatesByPoleEmploiId db, (pks group.2).Nodup)
    (hmem : ∀ duplicates, ∀ pk ∈ pks duplicates, ∃ a ∈ duplicates, a.pk = pk) :
    ((getDuplicatesByPoleEmploiId db).flatMap fun group => pks group.2).Nodup := by
  refine List.nodup_flatMap.mpr ⟨hnodup, ?_⟩
  refine (List.pairwise_map.mp (nodup_ids db)).imp_of_mem fun {group group'} hgroup hgroup' hne => ?_
  intro pk hpk hpk'
  obtain ⟨a, ha, rfl⟩ := hmem group.2 pk hpk
  obtain ⟨b, hb, heq⟩ := hmem group'.2 a.pk hpk'
  exact hne (congrArg Prod.fst (eq_group hgroup hgroup' ha hb heq.symm))

theorem nodup_groups (db : Database) :
    ((getDuplicatesByPoleEmploiId db).flatMap fun group => group.2.map Account.pk).Nodup :=
  nodup_flatMap_groups db (fun _ hgroup => (isGroup_of_mem hgroup).1.nodup) fun _ _ hpk => List.mem_map.mp hpk

/-! ## The target -/

theorem target_mem (h : chooseTarget duplicates = some target) : target ∈ duplicates := by
  unfold chooseTarget at h
  rcases Option.or_eq_some_iff.mp h with h | ⟨-, h⟩
  · exact List.mem_of_find?_eq_some h
  · rcases Option.or_eq_some_iff.mp h with h | ⟨-, h⟩
    · exact List.mem_of_find?_eq_some h
    · exact List.mem_of_mem_head? h

theorem exists_target (h : duplicates ≠ []) : ∃ target, chooseTarget duplicates = some target := by
  obtain ⟨first, rest, rfl⟩ := List.exists_cons_of_ne_nil h
  unfold chooseTarget
  cases (first :: rest).find? (·.hasApproval) with
  | some target => exact ⟨target, rfl⟩
  | none =>
      cases (first :: rest).find? (·.user.lastLogin.isSome) with
      | some target => exact ⟨target, rfl⟩
      | none => exact ⟨first, rfl⟩

theorem isEasy_iff : isEasy duplicates = true ↔
    (nirs duplicates).length ≤ 1 ∧ (duplicates.filter (·.hasApproval)).length ≤ 1 := by
  simp [isEasy]

theorem eq_of_length_le_one {α : Type} {l : List α} (h : l.length ≤ 1) {x y : α} (hx : x ∈ l) (hy : y ∈ l) : x = y := by
  match l, h with
  | [_], _ => exact (List.mem_singleton.mp hx).trans (List.mem_singleton.mp hy).symm

/-- The target is the account that has approvals, if there is one. -/
theorem eq_target_of_hasApproval (heasy : isEasy duplicates = true) (h : chooseTarget duplicates = some target)
    (ha : a ∈ duplicates) (happroval : a.hasApproval = true) : a = target := by
  have hfilter := (isEasy_iff.mp heasy).2
  unfold chooseTarget at h
  cases hfind : duplicates.find? (·.hasApproval) with
  | none => exact absurd happroval (List.find?_eq_none.mp hfind a ha)
  | some found =>
      rw [hfind] at h
      cases h
      exact eq_of_length_le_one hfilter (List.mem_filter.mpr ⟨ha, happroval⟩)
        (List.mem_filter.mpr ⟨List.mem_of_find?_eq_some hfind, by simpa using List.find?_some hfind⟩)

theorem mem_nirs (ha : a ∈ duplicates) (hnir : a.profile.nir ≠ "") : a.profile.nir ∈ nirs duplicates :=
  List.mem_filter.mpr ⟨List.mem_map_of_mem ha, decide_eq_true hnir⟩

theorem exists_of_mem_nirs (h : nir ∈ nirs duplicates) : ∃ a ∈ duplicates, a.profile.nir = nir ∧ nir ≠ "" := by
  obtain ⟨hmem, hne⟩ := List.mem_filter.mp h
  obtain ⟨a, ha, hnir⟩ := List.mem_map.mp hmem
  exact ⟨a, ha, hnir, of_decide_eq_true hne⟩

theorem isNot_iff : a.isNot b = true ↔ a.pk ≠ b.pk := by
  simp [Account.isNot]

/-! ## The merges of a run -/

/-- The accounts that are merged, each with the account that it is merged into. -/
def groupMerges (duplicates : List Account) : List (Nat × Nat) :=
  if isEasy duplicates then
    (chooseTarget duplicates).elim [] fun target =>
      (duplicates.filter (·.isNot target)).map fun account => (account.pk, target.pk)
  else []

def merges (db : Database) : List (Nat × Nat) :=
  (getDuplicatesByPoleEmploiId db).flatMap fun group => groupMerges group.2

theorem mem_groupMerges {merge : Nat × Nat} : merge ∈ groupMerges duplicates ↔ isEasy duplicates = true ∧
    ∃ target, chooseTarget duplicates = some target ∧ ∃ a ∈ duplicates, a.pk ≠ target.pk ∧ merge = (a.pk, target.pk) := by
  unfold groupMerges
  split
  next heasy =>
    cases htarget : chooseTarget duplicates with
    | none => simp
    | some target =>
        simp only [Option.elim_some, List.mem_map, List.mem_filter, isNot_iff, heasy, true_and, Option.some.injEq,
          exists_eq_left', and_assoc]
        exact exists_congr fun a => and_congr_right fun _ => and_congr_right fun _ => eq_comm
  next heasy => simp [heasy]

/-- Each merge in turn is not blocked, once those before it are done. -/
def AllUnblocked (db : Database) (merged : List (Nat × Nat)) : List (Nat × Nat) → Prop
  | [] => True
  | merge :: rest =>
      Unblocked db ((merged ++ [merge]).map Prod.fst) merge.1 ∧ AllUnblocked db (merged ++ [merge]) rest

theorem allUnblocked_append {l l' : List (Nat × Nat)} :
    AllUnblocked db merged (l ++ l') ↔ AllUnblocked db merged l ∧ AllUnblocked db (merged ++ l) l' := by
  induction l generalizing merged with
  | nil => simp [AllUnblocked]
  | cons merge l ih =>
      rw [List.cons_append, AllUnblocked, AllUnblocked, ih, and_assoc, List.append_assoc, List.singleton_append]

/-! ## The accounts of a group -/

theorem IsMergeable.next {user : Nat} (h : IsMergeable merged pk target.pk) (hne : pk ≠ user) :
    IsMergeable (merged ++ [(user, target.pk)]) pk target.pk where
  ne := h.ne
  source := by
    rw [List.map_append, List.mem_append, not_or]
    exact ⟨h.source, fun hmem => hne (List.mem_singleton.mp hmem)⟩
  target := by
    rw [List.map_append, List.mem_append, not_or]
    exact ⟨h.target, fun hmem => h.ne (List.mem_singleton.mp hmem)⟩

theorem mergeUser_eq_ok (h : a.hasApproval = false) :
    mergeUser true target s a = .ok s' ↔ mergeInto target.pk s a.pk = .ok s' := by
  rw [mergeUser, if_neg (by simp [h]), if_pos rfl, mapError_eq_ok]

theorem foldlM_cons_eq_ok {f : Database → Account → Except Failure Database} :
    (a :: us).foldlM f s = .ok s' ↔ ∃ s₁, f s a = .ok s₁ ∧ us.foldlM f s₁ = .ok s' := by
  rw [List.foldlM_cons, bind_eq_ok]

/-- The accounts can be merged into the target after these merges. -/
structure AreMergeable (merged : List (Nat × Nat)) (target : Account) (us : List Account) : Prop where
  approvals : ∀ a ∈ us, a.hasApproval = false
  nodup : (us.map Account.pk).Nodup
  mergeable : ∀ a ∈ us, IsMergeable merged a.pk target.pk

theorem AreMergeable.tail (h : AreMergeable merged target (a :: us)) :
    AreMergeable (merged ++ [(a.pk, target.pk)]) target us := by
  obtain ⟨hnew, hnodup⟩ := List.nodup_cons.mp h.nodup
  refine ⟨fun b hb => h.approvals b (List.mem_cons_of_mem a hb), hnodup, fun b hb => ?_⟩
  refine (h.mergeable b (List.mem_cons_of_mem a hb)).next fun hpk => hnew ?_
  exact hpk ▸ List.mem_map_of_mem hb

theorem mergeUsers (h : Merged db merged s) (hus : AreMergeable merged target us)
    (hok : us.foldlM (mergeUser true target) s = .ok s') :
    Merged db (merged ++ us.map fun a => (a.pk, target.pk)) s' ∧
      AllUnblocked db merged (us.map fun a => (a.pk, target.pk)) := by
  induction us generalizing merged s with
  | nil =>
      cases hok
      rw [List.map_nil, List.append_nil]
      exact ⟨h, trivial⟩
  | cons a us ih =>
      obtain ⟨s₁, hmerge, hrest⟩ := foldlM_cons_eq_ok.mp hok
      rw [mergeUser_eq_ok (hus.approvals a List.mem_cons_self)] at hmerge
      obtain ⟨hmerged, hunblocked⟩ := Merged.mergeInto h (hus.mergeable a List.mem_cons_self) hmerge
      obtain ⟨hafter, hall⟩ := ih hmerged hus.tail hrest
      rw [List.append_assoc, List.singleton_append] at hafter
      exact ⟨hafter, hunblocked, hall⟩

theorem mergeUsers_succeeds (h : Merged db merged s) (hus : AreMergeable merged target us)
    (hmem : ∀ a ∈ us, a ∈ accounts db)
    (hgeiq : ∀ a ∈ us, ∀ row ∈ db.rows, row.fk .geiqEligibilityDiagnosisJobSeeker ≠ some a.pk)
    (hunblocked : AllUnblocked db merged (us.map fun a => (a.pk, target.pk))) :
    ∃ s', us.foldlM (mergeUser true target) s = .ok s' := by
  induction us generalizing merged s with
  | nil => exact ⟨s, rfl⟩
  | cons a us ih =>
      have hnone := hus.approvals a List.mem_cons_self
      obtain ⟨s₁, hmerge⟩ := mergeInto_succeeds h (hus.mergeable a List.mem_cons_self)
        (fk_approvalUser_ne (hmem a List.mem_cons_self) hnone) (hgeiq a List.mem_cons_self) hunblocked.1
      obtain ⟨hmerged, -⟩ := Merged.mergeInto h (hus.mergeable a List.mem_cons_self) hmerge
      obtain ⟨s', hrest⟩ := ih hmerged hus.tail (fun b hb => hmem b (List.mem_cons_of_mem a hb))
        (fun b hb => hgeiq b (List.mem_cons_of_mem a hb)) hunblocked.2
      exact ⟨s', foldlM_cons_eq_ok.mpr ⟨s₁, (mergeUser_eq_ok hnone).mpr hmerge, hrest⟩⟩

theorem HasNir.mergeUsers (h : HasNir s pk nir) (hne : ∀ a ∈ us, a.pk ≠ pk) (hnone : ∀ a ∈ us, a.hasApproval = false)
    (hok : us.foldlM (mergeUser true target) s = .ok s') : HasNir s' pk nir := by
  induction us generalizing s with
  | nil =>
      cases hok
      exact h
  | cons a us ih =>
      obtain ⟨s₁, hmerge, hrest⟩ := foldlM_cons_eq_ok.mp hok
      rw [mergeUser_eq_ok (hnone a List.mem_cons_self)] at hmerge
      exact ih (h.mergeInto (hne a List.mem_cons_self).symm hmerge) (fun b hb => hne b (List.mem_cons_of_mem a hb))
        (fun b hb => hnone b (List.mem_cons_of_mem a hb)) hrest

/-- The e-mails that the log of a group needs. -/
def EmailsGiven (duplicates : List Account) (target : Account) : Prop :=
  target.user.email.getD "" ≠ "" ∧ ∀ a ∈ duplicates, a.user.email ≠ none

theorem handleEasyDuplicates_eq_ok {l : List String} (hnodup : (duplicates.map Account.pk).Nodup)
    (htarget : target ∈ duplicates) :
    handleEasyDuplicates true duplicates target l s = .ok s' ↔ EmailsGiven duplicates target ∧
      ∃ s₁, (duplicates.filter (·.isNot target)).foldlM (mergeUser true target) s = .ok s₁ ∧
        reassignNir true target l s₁ = .ok s' := by
  unfold handleEasyDuplicates
  by_cases hemail : target.user.email.getD "" = ""
  · rw [if_pos hemail]
    exact ⟨fun h => (by cases h), fun h => absurd hemail h.1.1⟩
  · rw [if_neg hemail]
    dsimp only
    by_cases hany : (duplicates.filter (·.isNot target)).any (·.user.email.isNone) = true
    · rw [if_pos hany]
      obtain ⟨a, ha, hnone⟩ := List.any_eq_true.mp hany
      exact ⟨fun h => (by cases h),
        fun h => absurd (Option.isNone_iff_eq_none.mp hnone) (h.1.2 a (List.mem_filter.mp ha).1)⟩
    · rw [if_neg hany, bind_eq_ok]
      simp only [mapError_eq_ok]
      refine (and_iff_right ⟨hemail, fun a ha hnone => ?_⟩).symm
      by_cases hpk : a.pk = target.pk
      · obtain rfl := eq_of_pk_eq hnodup ha htarget hpk
        rw [hnone] at hemail
        exact hemail rfl
      · exact hany (List.any_eq_true.mpr
          ⟨a, List.mem_filter.mpr ⟨ha, isNot_iff.mpr hpk⟩, Option.isNone_iff_eq_none.mpr hnone⟩)

/-! ## The NIR of a group -/

theorem profile_eq {row row' : Row} (hrow : row ∈ db.rows) (hrow' : row' ∈ db.rows) (hmodel : row.model = .jobSeekerProfile)
    (hmodel' : row'.model = .jobSeekerProfile) (hnir : row.columns.nir = row'.columns.nir) (hne : row.columns.nir ≠ "") :
    row = row' := by
  by_contra hdistinct
  have hkey : row.key ≠ row'.key := fun hkey => hdistinct (Database.eq_of_key_eq hrow' hrow hkey)
  have hconflict := db.accepted.2 row hrow row' hrow' hkey
  rw [conflict_iff.mpr ⟨hmodel, hmodel', hnir, hne⟩] at hconflict
  cases hconflict

/-- The other accounts of the group have been merged into the target. -/
structure IsMergedGroup (db : Database) (merged : List (Nat × Nat)) (duplicates : List Account) (target : Account) :
    Prop where
  group : IsGroup db duplicates
  easy : isEasy duplicates = true
  chosen : chooseTarget duplicates = some target
  nodup : (merged.map Prod.fst).Nodup
  left : target.pk ∉ merged.map Prod.fst
  others : ∀ a ∈ duplicates, a.pk ≠ target.pk → (a.pk, target.pk) ∈ merged

/-- The profile of the target, before and after the merges. -/
theorem IsMergedGroup.profile (hgroup : IsMergedGroup db merged duplicates target) (h : Merged db merged s) :
    ∃ row ∈ db.rows, row.key = (.jobSeekerProfile, target.pk) ∧ row.columns = target.profile ∧
      ∃ row' ∈ s.rows, Same merged row row' := by
  obtain ⟨-, -, row, hrow, hkey, hcolumns⟩ := mem_accounts (hgroup.group.mem target (target_mem hgroup.chosen))
  have hmodel : row.model = .jobSeekerProfile := congrArg Prod.fst hkey
  refine ⟨row, hrow, hkey, hcolumns, h.kept row hrow (by rw [hmodel]; decide) ?_⟩
  rw [gone_profile hrow hmodel, show row.pk = target.pk from congrArg Prod.snd hkey]
  exact hgroup.left

theorem IsMergedGroup.nir_eq (hgroup : IsMergedGroup db merged duplicates target) (ha : a ∈ duplicates)
    (hb : b ∈ duplicates) (hanir : a.profile.nir ≠ "") (hbnir : b.profile.nir ≠ "") : a.profile.nir = b.profile.nir :=
  eq_of_length_le_one (isEasy_iff.mp hgroup.easy).1 (mem_nirs ha hanir) (mem_nirs hb hbnir)

/-- The account that had the NIR is deleted, so that no other profile has it. -/
theorem IsMergedGroup.unique (hgroup : IsMergedGroup db merged duplicates target) (h : Merged db merged s)
    (ha : a ∈ duplicates) (hne : a.pk ≠ target.pk) (hnir : a.profile.nir ≠ "") :
    ∀ row ∈ s.rows, row.model = .jobSeekerProfile → row.columns.nir = a.profile.nir →
      row.key = (.jobSeekerProfile, target.pk) := by
  intro row' hrow' hmodel' hrownir
  obtain ⟨-, -, holder, hholder, hkey, hcolumns⟩ := mem_accounts (hgroup.group.mem a ha)
  have hholderModel : holder.model = .jobSeekerProfile := congrArg Prod.fst hkey
  have hholderPk : holder.pk = a.pk := congrArg Prod.snd hkey
  have hmerged : (a.pk, target.pk) ∈ merged := hgroup.others a ha hne
  obtain ⟨row, hrow, hmodel, hrowNir, howner⟩ := h.nir row' hrow' hmodel' (hrownir ▸ hnir)
  have heq : row = holder := by
    refine profile_eq hrow hholder hmodel hholderModel ?_ ?_
    · rw [hrowNir, hrownir, hcolumns]
    · rw [hrowNir, hrownir]
      exact hnir
  subst heq
  rw [hholderPk] at howner
  rcases howner with howner | howner
  · -- The profile of the account itself is deleted.
    obtain ⟨row₁, hrow₁, hgone, hsame⟩ := h.comes row' hrow'
    refine absurd ((gone_profile hrow₁ (hsame.model_eq.symm.trans hmodel')).mpr ?_) hgone
    rw [← hsame.pk_eq, ← howner]
    exact List.mem_map_of_mem hmerged
  · have hpair := List.inj_on_of_nodup_map hgroup.nodup howner hmerged rfl
    have hpk : row'.pk = target.pk := congrArg Prod.snd hpair
    rw [Row.key, hmodel', hpk]

/-- The NIR that is moved is that of an account that is deleted. -/
theorem IsMergedGroup.exists_holder (hgroup : IsMergedGroup db merged duplicates target)
    (hnirs : nirs duplicates = [nir]) (htarget : target.profile.nir = "") :
    ∃ a ∈ duplicates, a.pk ≠ target.pk ∧ a.profile.nir = nir ∧ nir ≠ "" := by
  obtain ⟨a, ha, hnir, hne⟩ := exists_of_mem_nirs (hnirs ▸ List.mem_cons_self : nir ∈ nirs duplicates)
  refine ⟨a, ha, fun hpk => hne ?_, hnir, hne⟩
  obtain rfl := eq_of_pk_eq hgroup.group.nodup ha (target_mem hgroup.chosen) hpk
  exact hnir.symm.trans htarget

theorem IsMergedGroup.reassignNir_succeeds (hgroup : IsMergedGroup db merged duplicates target)
    (h : Merged db merged s) : ∃ s', reassignNir true target (nirs duplicates) s = .ok s' := by
  unfold reassignNir
  split
  next nir hnirs =>
    split
    next htarget =>
      obtain ⟨a, ha, hne, hnir, hempty⟩ := hgroup.exists_holder hnirs htarget.1
      subst hnir
      exact saveNir_succeeds (hgroup.unique h ha hne hempty)
    next => exact ⟨s, rfl⟩
  next => exact ⟨s, rfl⟩

theorem IsMergedGroup.after_reassignNir (hgroup : IsMergedGroup db merged duplicates target) (h : Merged db merged s)
    (hok : reassignNir true target (nirs duplicates) s = .ok s') : Merged db merged s' ∧
      ∀ a ∈ duplicates, a.profile.nir ≠ "" → HasNir s' target.pk a.profile.nir := by
  obtain ⟨row, hrow, hkey, hcolumns, row', hrow', hsame⟩ := hgroup.profile h
  have hkey' : row'.key = (.jobSeekerProfile, target.pk) := hsame.key.trans hkey
  by_cases htarget : target.profile.nir = ""
  · cases hnirs : nirs duplicates with
    | nil =>
        rw [hnirs] at hok
        cases hok
        refine ⟨h, fun a ha hnir => ?_⟩
        have hmem := mem_nirs ha hnir
        rw [hnirs] at hmem
        cases hmem
    | cons nir rest =>
        have hlength := (isEasy_iff.mp hgroup.easy).1
        rw [hnirs, List.length_cons] at hlength
        obtain rfl : rest = [] := List.eq_nil_of_length_eq_zero (by omega)
        rw [hnirs, reassignNir, if_pos ⟨htarget, rfl⟩] at hok
        obtain ⟨a, ha, hne, hnir, hempty⟩ := hgroup.exists_holder hnirs htarget
        obtain ⟨-, -, holder, hholder, hholderKey, hholderColumns⟩ := mem_accounts (hgroup.group.mem a ha)
        refine ⟨After.saveNir h hok (fun row₁ hrow₁ hkey₁ => ?_) ⟨holder, hholder, congrArg Prod.fst hholderKey, ?_, ?_⟩,
          fun b hb hbnir => ?_⟩
        · obtain rfl := Database.eq_of_key_eq hrow hrow₁ (hkey₁.trans hkey.symm)
          rw [hcolumns, htarget]
        · rw [hholderColumns, hnir]
        · rw [show holder.pk = a.pk from congrArg Prod.snd hholderKey]
          exact hgroup.others a ha hne
        · rw [hgroup.nir_eq hb ha hbnir (hnir ▸ hempty), hnir]
          exact hasNir_of_saveNir hok hrow' hkey'
  · have hunchanged : s' = s := by
      unfold reassignNir at hok
      split at hok
      next =>
        rw [if_neg fun hempty => htarget hempty.1] at hok
        cases hok
        rfl
      next =>
        cases hok
        rfl
    subst hunchanged
    refine ⟨h, fun a ha hnir => ⟨row', hrow', hkey', ?_⟩⟩
    rw [hsame.columns (.inr (by rw [hcolumns]; exact htarget)), hcolumns]
    exact hgroup.nir_eq (target_mem hgroup.chosen) ha htarget hnir

theorem HasNir.reassignNir {l : List String} (h : HasNir s pk nir) (hne : pk ≠ target.pk)
    (hok : reassignNir true target l s = .ok s') : HasNir s' pk nir := by
  unfold DeduplicateJobSeekers.reassignNir at hok
  split at hok
  next =>
    split at hok
    next => exact h.saveNir hne hok
    next =>
      cases hok
      exact h
  next =>
    cases hok
    exact h

/-! ## One group -/

/-- No account of the group takes part in these merges. -/
structure IsNew (merged : List (Nat × Nat)) (duplicates : List Account) : Prop where
  nodup : (merged.map Prod.fst).Nodup
  source : ∀ a ∈ duplicates, a.pk ∉ merged.map Prod.fst
  target : ∀ a ∈ duplicates, a.pk ∉ merged.map Prod.snd

theorem groupMerges_eq (heasy : isEasy duplicates = true) (htarget : chooseTarget duplicates = some target) :
    groupMerges duplicates = (duplicates.filter (·.isNot target)).map fun a => (a.pk, target.pk) := by
  rw [groupMerges, if_pos heasy, htarget, Option.elim_some]

theorem hasApproval_of_isNot (heasy : isEasy duplicates = true) (htarget : chooseTarget duplicates = some target) :
    ∀ a ∈ duplicates.filter (·.isNot target), a.hasApproval = false := by
  intro a ha
  obtain ⟨ha, hne⟩ := List.mem_filter.mp ha
  rw [← Bool.not_eq_true]
  intro happroval
  exact isNot_iff.mp hne (congrArg Account.pk (eq_target_of_hasApproval heasy htarget ha happroval))

theorem areMergeable (hgroup : IsGroup db duplicates) (heasy : isEasy duplicates = true)
    (htarget : chooseTarget duplicates = some target) (hnew : IsNew merged duplicates) :
    AreMergeable merged target (duplicates.filter (·.isNot target)) where
  approvals := hasApproval_of_isNot heasy htarget
  nodup := (List.filter_sublist.map Account.pk).nodup hgroup.nodup
  mergeable a ha := by
    obtain ⟨ha, hne⟩ := List.mem_filter.mp ha
    exact ⟨isNot_iff.mp hne, hnew.source a ha, hnew.target a ha⟩

theorem fst_mem_groupMerges (h : pk ∈ (groupMerges duplicates).map Prod.fst) : ∃ a ∈ duplicates, a.pk = pk := by
  obtain ⟨merge, hmerge, rfl⟩ := List.mem_map.mp h
  obtain ⟨-, target, -, a, ha, -, rfl⟩ := mem_groupMerges.mp hmerge
  exact ⟨a, ha, rfl⟩

theorem snd_mem_groupMerges (h : pk ∈ (groupMerges duplicates).map Prod.snd) : ∃ a ∈ duplicates, a.pk = pk := by
  obtain ⟨merge, hmerge, rfl⟩ := List.mem_map.mp h
  obtain ⟨-, target, htarget, -, -, -, rfl⟩ := mem_groupMerges.mp hmerge
  exact ⟨target, target_mem htarget, rfl⟩

theorem nodup_groupMerges (hgroup : IsGroup db duplicates) : ((groupMerges duplicates).map Prod.fst).Nodup := by
  unfold groupMerges
  split
  next =>
    cases chooseTarget duplicates with
    | none => exact List.nodup_nil
    | some target =>
        rw [Option.elim_some, List.map_map]
        exact (List.filter_sublist.map Account.pk).nodup hgroup.nodup
  next => exact List.nodup_nil

theorem nodup_append_groupMerges (hgroup : IsGroup db duplicates) (hnew : IsNew merged duplicates) :
    ((merged ++ groupMerges duplicates).map Prod.fst).Nodup := by
  rw [List.map_append]
  refine List.nodup_append.mpr ⟨hnew.nodup, nodup_groupMerges hgroup, fun pk hpk pk' hpk' heq => ?_⟩
  obtain ⟨a, ha, rfl⟩ := fst_mem_groupMerges hpk'
  exact hnew.source a ha (heq ▸ hpk)

theorem isMergedGroup (hgroup : IsGroup db duplicates) (heasy : isEasy duplicates = true)
    (htarget : chooseTarget duplicates = some target) (hnew : IsNew merged duplicates) :
    IsMergedGroup db (merged ++ groupMerges duplicates) duplicates target where
  group := hgroup
  easy := heasy
  chosen := htarget
  nodup := nodup_append_groupMerges hgroup hnew
  left := by
    rw [List.map_append, List.mem_append, not_or, groupMerges_eq heasy htarget]
    refine ⟨hnew.source target (target_mem htarget), fun hmem => ?_⟩
    obtain ⟨merge, hmerge, hpk⟩ := List.mem_map.mp hmem
    obtain ⟨a, ha, rfl⟩ := List.mem_map.mp hmerge
    exact isNot_iff.mp (List.mem_filter.mp ha).2 hpk
  others a ha hne := List.mem_append_right _ (mem_groupMerges.mpr ⟨heasy, target, htarget, a, ha, hne, rfl⟩)

theorem groupMerges_of_not_isEasy (h : ¬ isEasy duplicates = true) : groupMerges duplicates = [] := if_neg h

/-- What the command does to the accounts of a group. -/
theorem handleDuplicates_eq_ok (hgroup : IsGroup db duplicates) (htarget : chooseTarget duplicates = some target) :
    handleDuplicates true s duplicates = .ok s' ↔ if isEasy duplicates then EmailsGiven duplicates target ∧
      ∃ s₁, (duplicates.filter (·.isNot target)).foldlM (mergeUser true target) s = .ok s₁ ∧
        reassignNir true target (nirs duplicates) s₁ = .ok s' else s' = s := by
  rw [handleDuplicates, if_pos hgroup.birthdate]
  split
  next => rw [htarget, Option.elim_some, handleEasyDuplicates_eq_ok hgroup.nodup (target_mem htarget)]
  next => rw [Except.ok.injEq, eq_comm]

theorem IsGroup.exists_target (hgroup : IsGroup db duplicates) : ∃ target, chooseTarget duplicates = some target := by
  refine DeduplicateJobSeekers.exists_target fun hnil => ?_
  have htwo := hgroup.two
  rw [hnil] at htwo
  exact absurd htwo (by decide)

theorem after_handleDuplicates (hgroup : IsGroup db duplicates) (hnew : IsNew merged duplicates)
    (h : Merged db merged s) (hok : handleDuplicates true s duplicates = .ok s') :
    Merged db (merged ++ groupMerges duplicates) s' ∧ AllUnblocked db merged (groupMerges duplicates) ∧
      (isEasy duplicates = true → ∀ target, chooseTarget duplicates = some target → EmailsGiven duplicates target ∧
        ∀ a ∈ duplicates, a.profile.nir ≠ "" → HasNir s' target.pk a.profile.nir) := by
  obtain ⟨target, htarget⟩ := hgroup.exists_target
  rw [handleDuplicates_eq_ok hgroup htarget] at hok
  by_cases heasy : isEasy duplicates = true
  · rw [if_pos heasy] at hok
    obtain ⟨hemails, s₁, hmerges, hreassign⟩ := hok
    obtain ⟨hmerged, hunblocked⟩ := mergeUsers h (areMergeable hgroup heasy htarget hnew) hmerges
    rw [← groupMerges_eq heasy htarget] at hmerged hunblocked
    obtain ⟨hafter, hnir⟩ := (isMergedGroup hgroup heasy htarget hnew).after_reassignNir hmerged hreassign
    refine ⟨hafter, hunblocked, fun _ target' htarget' => ?_⟩
    obtain rfl := Option.some.inj (htarget.symm.trans htarget')
    exact ⟨hemails, hnir⟩
  · rw [if_neg heasy] at hok
    rw [groupMerges_of_not_isEasy heasy, List.append_nil, hok]
    exact ⟨h, trivial, fun hcontra => absurd hcontra heasy⟩

theorem handleDuplicates_succeeds (hgroup : IsGroup db duplicates) (hnew : IsNew merged duplicates)
    (h : Merged db merged s)
    (hemails : isEasy duplicates = true → ∀ target, chooseTarget duplicates = some target →
      EmailsGiven duplicates target)
    (hgeiq : ∀ merge ∈ groupMerges duplicates, ∀ row ∈ db.rows,
      row.fk .geiqEligibilityDiagnosisJobSeeker ≠ some merge.1)
    (hunblocked : AllUnblocked db merged (groupMerges duplicates)) :
    ∃ s', handleDuplicates true s duplicates = .ok s' := by
  obtain ⟨target, htarget⟩ := hgroup.exists_target
  simp only [handleDuplicates_eq_ok hgroup htarget]
  by_cases heasy : isEasy duplicates = true
  · simp only [if_pos heasy]
    have hmergeable := areMergeable hgroup heasy htarget hnew
    rw [groupMerges_eq heasy htarget] at hgeiq hunblocked
    obtain ⟨s₁, hs₁⟩ := mergeUsers_succeeds h hmergeable (fun a ha => hgroup.mem a (List.mem_filter.mp ha).1)
      (fun a ha => hgeiq _ (List.mem_map_of_mem ha)) hunblocked
    obtain ⟨hmerged, -⟩ := mergeUsers h hmergeable hs₁
    rw [← groupMerges_eq heasy htarget] at hmerged
    obtain ⟨s', hs'⟩ := (isMergedGroup hgroup heasy htarget hnew).reassignNir_succeeds hmerged
    exact ⟨s', hemails heasy target htarget, s₁, hs₁, hs'⟩
  · simp only [if_neg heasy]
    exact ⟨s, rfl⟩

theorem HasNir.handleDuplicates (h : HasNir s pk nir) (hgroup : IsGroup db duplicates)
    (hne : ∀ a ∈ duplicates, a.pk ≠ pk) (hok : handleDuplicates true s duplicates = .ok s') : HasNir s' pk nir := by
  obtain ⟨target, htarget⟩ := hgroup.exists_target
  rw [handleDuplicates_eq_ok hgroup htarget] at hok
  by_cases heasy : isEasy duplicates = true
  · rw [if_pos heasy] at hok
    obtain ⟨-, s₁, hmerges, hreassign⟩ := hok
    have hnone := hasApproval_of_isNot heasy htarget
    exact (h.mergeUsers (fun a ha => hne a (List.mem_filter.mp ha).1) hnone hmerges).reassignNir
      (hne target (target_mem htarget)).symm hreassign
  · rw [if_neg heasy] at hok
    rw [hok]
    exact h

/-! ## The run -/

section Run

variable {groups : List (String × List Account)}

theorem isNew_next {group : String × List Account} (hgroup : IsGroup db group.2) (hnew : IsNew merged group.2)
    (hother : IsNew merged duplicates) (hdisjoint : ∀ a ∈ group.2, ∀ b ∈ duplicates, a.pk ≠ b.pk) :
    IsNew (merged ++ groupMerges group.2) duplicates where
  nodup := nodup_append_groupMerges hgroup hnew
  source b hb := by
    rw [List.map_append, List.mem_append, not_or]
    refine ⟨hother.source b hb, fun hmem => ?_⟩
    obtain ⟨a, ha, hpk⟩ := fst_mem_groupMerges hmem
    exact hdisjoint a ha b hb hpk
  target b hb := by
    rw [List.map_append, List.mem_append, not_or]
    refine ⟨hother.target b hb, fun hmem => ?_⟩
    obtain ⟨a, ha, hpk⟩ := snd_mem_groupMerges hmem
    exact hdisjoint a ha b hb hpk

/-- The groups that are left to handle after these merges. -/
structure AreLeft (db : Database) (merged : List (Nat × Nat)) (groups : List (String × List Account)) : Prop where
  group : ∀ group ∈ groups, IsGroup db group.2
  disjoint : (groups.flatMap fun group => group.2.map Account.pk).Nodup
  new : ∀ group ∈ groups, IsNew merged group.2

theorem AreLeft.disjoint_head {group : String × List Account} (h : AreLeft db merged (group :: groups)) :
    ∀ a ∈ group.2, ∀ other ∈ groups, ∀ b ∈ other.2, a.pk ≠ b.pk := by
  intro a ha other hother b hb
  have hdisjoint := h.disjoint
  rw [List.flatMap_cons] at hdisjoint
  exact (List.nodup_append.mp hdisjoint).2.2 a.pk (List.mem_map_of_mem ha) b.pk
    (List.mem_flatMap.mpr ⟨other, hother, List.mem_map_of_mem hb⟩)

theorem AreLeft.tail {group : String × List Account} (h : AreLeft db merged (group :: groups)) :
    AreLeft db (merged ++ groupMerges group.2) groups where
  group other hother := h.group other (List.mem_cons_of_mem group hother)
  disjoint := by
    have hdisjoint := h.disjoint
    rw [List.flatMap_cons] at hdisjoint
    exact (List.nodup_append.mp hdisjoint).2.1
  new other hother := isNew_next (h.group group List.mem_cons_self) (h.new group List.mem_cons_self)
    (h.new other (List.mem_cons_of_mem group hother)) fun a ha b hb => h.disjoint_head a ha other hother b hb

theorem areLeft_start (db : Database) : AreLeft db [] (getDuplicatesByPoleEmploiId db) where
  group _ hgroup := (isGroup_of_mem hgroup).1
  disjoint := nodup_groups db
  new _ _ := ⟨List.nodup_nil, fun _ _ => List.not_mem_nil, fun _ _ => List.not_mem_nil⟩

theorem foldlM_groups_cons_eq_ok {group : String × List Account} :
    (group :: groups).foldlM (fun db group => handleDuplicates true db group.2) s = .ok s' ↔
      ∃ s₁, handleDuplicates true s group.2 = .ok s₁ ∧
        groups.foldlM (fun db group => handleDuplicates true db group.2) s₁ = .ok s' := by
  rw [List.foldlM_cons, bind_eq_ok]

theorem hasNir_of_handleGroups (h : HasNir s pk nir) (hgroups : ∀ group ∈ groups, IsGroup db group.2)
    (hne : ∀ group ∈ groups, ∀ a ∈ group.2, a.pk ≠ pk)
    (hok : groups.foldlM (fun db group => handleDuplicates true db group.2) s = .ok s') : HasNir s' pk nir := by
  induction groups generalizing s with
  | nil =>
      cases hok
      exact h
  | cons group groups ih =>
      obtain ⟨s₁, hgroup, hrest⟩ := foldlM_groups_cons_eq_ok.mp hok
      have hnir := h.handleDuplicates (hgroups group List.mem_cons_self) (hne group List.mem_cons_self) hgroup
      exact ih hnir (fun other hother => hgroups other (List.mem_cons_of_mem group hother))
        (fun other hother => hne other (List.mem_cons_of_mem group hother)) hrest

theorem after_handleGroups (hleft : AreLeft db merged groups) (h : Merged db merged s)
    (hok : groups.foldlM (fun db group => handleDuplicates true db group.2) s = .ok s') :
    Merged db (merged ++ groups.flatMap fun group => groupMerges group.2) s' ∧
      AllUnblocked db merged (groups.flatMap fun group => groupMerges group.2) ∧
      ∀ group ∈ groups, isEasy group.2 = true → ∀ target, chooseTarget group.2 = some target →
        EmailsGiven group.2 target ∧ ∀ a ∈ group.2, a.profile.nir ≠ "" → HasNir s' target.pk a.profile.nir := by
  induction groups generalizing merged s with
  | nil =>
      cases hok
      rw [List.flatMap_nil, List.append_nil]
      exact ⟨h, trivial, fun _ hgroup => absurd hgroup List.not_mem_nil⟩
  | cons group groups ih =>
      obtain ⟨s₁, hgroup, hrest⟩ := foldlM_groups_cons_eq_ok.mp hok
      obtain ⟨hmerged, hunblocked, hhead⟩ := after_handleDuplicates (hleft.group group List.mem_cons_self)
        (hleft.new group List.mem_cons_self) h hgroup
      obtain ⟨hafter, hall, htail⟩ := ih hleft.tail hmerged hrest
      rw [List.flatMap_cons, allUnblocked_append, ← List.append_assoc]
      refine ⟨hafter, ⟨hunblocked, hall⟩, fun other hother heasy target htarget => ?_⟩
      rcases List.mem_cons.mp hother with rfl | hother
      · obtain ⟨hemails, hnir⟩ := hhead heasy target htarget
        refine ⟨hemails, fun a ha hne => hasNir_of_handleGroups (hnir a ha hne) hleft.tail.group
          (fun group' hgroup' b hb => ?_) hrest⟩
        exact (hleft.disjoint_head target (target_mem htarget) group' hgroup' b hb).symm
      · exact htail other hother heasy target htarget

theorem handleGroups_succeeds (hleft : AreLeft db merged groups) (h : Merged db merged s)
    (hemails : ∀ group ∈ groups, isEasy group.2 = true → ∀ target, chooseTarget group.2 = some target →
      EmailsGiven group.2 target)
    (hgeiq : ∀ merge ∈ groups.flatMap fun group => groupMerges group.2, ∀ row ∈ db.rows,
      row.fk .geiqEligibilityDiagnosisJobSeeker ≠ some merge.1)
    (hunblocked : AllUnblocked db merged (groups.flatMap fun group => groupMerges group.2)) :
    ∃ s', groups.foldlM (fun db group => handleDuplicates true db group.2) s = .ok s' := by
  induction groups generalizing merged s with
  | nil => exact ⟨s, rfl⟩
  | cons group groups ih =>
      rw [List.flatMap_cons, allUnblocked_append] at hunblocked
      rw [List.flatMap_cons] at hgeiq
      have hgroup := hleft.group group List.mem_cons_self
      have hnew := hleft.new group List.mem_cons_self
      obtain ⟨s₁, hs₁⟩ := handleDuplicates_succeeds hgroup hnew h (hemails group List.mem_cons_self)
        (fun merge hmerge => hgeiq merge (List.mem_append_left _ hmerge)) hunblocked.1
      obtain ⟨hmerged, -, -⟩ := after_handleDuplicates hgroup hnew h hs₁
      obtain ⟨s', hs'⟩ := ih hleft.tail hmerged
        (fun other hother => hemails other (List.mem_cons_of_mem group hother))
        (fun merge hmerge => hgeiq merge (List.mem_append_right _ hmerge)) hunblocked.2
      exact ⟨s', foldlM_groups_cons_eq_ok.mpr ⟨s₁, hs₁, hs'⟩⟩

end Run

/-! ## What is lost -/

/-- The relations of the records of an account. A membership of a follow-up group is also that of its beneficiary. -/
def recordRelations : List Relation :=
  [.jobApplicationJobSeeker, .eligibilityDiagnosisJobSeeker, .geiqEligibilityDiagnosisJobSeeker,
    .jobSeekerAssignmentJobSeeker, .followUpGroupMembershipMember]

def Belongs (s : Database) (record : Model × Nat) (account : Nat) : Prop :=
  ∃ row ∈ s.rows, row.key = record ∧ ((∃ r ∈ recordRelations, row.fk r = some account) ∨
    ∃ group ∈ s.rows, group.fk .followUpGroupBeneficiary = some account ∧
      row.fk .followUpGroupMembershipFollowUpGroup = some group.pk)

def HasUser (s : Database) (account : Nat) : Prop := (.user, account) ∈ s.rows.map Row.key

/-- The accounts of a group are merged into the target, which gets all that they had. -/
structure MergedInto (db db' : Database) (duplicates : List Account) (target : Account) : Prop where
  mem : target ∈ duplicates
  left : HasUser db' target.pk
  deleted : ∀ a ∈ duplicates, a.pk ≠ target.pk → ¬ HasUser db' a.pk
  oneNir : ∀ a ∈ duplicates, ∀ b ∈ duplicates, a.profile.nir ≠ "" → b.profile.nir ≠ "" → a.profile.nir = b.profile.nir
  oneApproval : ∀ a ∈ duplicates, ∀ b ∈ duplicates, ∀ x ∈ a.approvals, ∀ y ∈ b.approvals, x = y
  records : ∀ a ∈ duplicates, a.pk ≠ target.pk → ∀ record, Belongs db record a.pk → Belongs db' record target.pk
  nir : ∀ a ∈ duplicates, a.profile.nir ≠ "" → HasNir db' target.pk a.profile.nir

/-- The accounts of each group are two at least, with one France Travail number and one birthdate. A run ends without an
exception, and each group is left as it is or merged. -/
structure LosesNothing (db : Database) : Prop where
  group : ∀ group ∈ getDuplicatesByPoleEmploiId db, (group.2.map Account.pk).Nodup ∧ 2 ≤ group.2.length ∧
    ∀ a ∈ group.2, ∀ b ∈ group.2, a.profile.poleEmploiId = b.profile.poleEmploiId ∧
      a.profile.birthdate = b.profile.birthdate
  run : ∃ db', handle true db = .ok db' ∧ ∀ group ∈ getDuplicatesByPoleEmploiId db,
    (∀ a ∈ group.2, HasUser db' a.pk) ∨ ∃ target, MergedInto db db' group.2 target

/-- In the groups to merge, the accounts have e-mails and one approval at most. The merged ones have no other records than
applications and IAE diagnoses, and no other row blocks their deletion. -/
structure NothingToLose (db : Database) : Prop where
  emails : ∀ group ∈ getDuplicatesByPoleEmploiId db, isEasy group.2 = true → ∀ target,
    chooseTarget group.2 = some target → EmailsGiven group.2 target
  approval : ∀ group ∈ getDuplicatesByPoleEmploiId db, isEasy group.2 = true → ∀ target,
    chooseTarget group.2 = some target → ∀ x ∈ target.approvals, ∀ y ∈ target.approvals, x = y
  records : ∀ merge ∈ merges db, ∀ record, Belongs db record merge.1 →
    record.1 = .jobApplication ∨ record.1 = .eligibilityDiagnosis
  unblocked : AllUnblocked db [] (merges db)

theorem hasUser_iff (h : Merged db merged s) (ha : a ∈ accounts db) : HasUser s a.pk ↔ a.pk ∉ merged.map Prod.fst := by
  constructor
  · intro hexists hmem
    obtain ⟨row', hrow', hkey⟩ := List.mem_map.mp hexists
    obtain ⟨row, -, hgone, hsame⟩ := h.comes row' hrow'
    rw [← hsame.key, hkey] at hgone
    exact hgone (gone_of_mem hmem)
  · intro hnot
    obtain ⟨-, ⟨row, hrow, hkey, -⟩, -⟩ := mem_accounts ha
    have hmodel : row.model ≠ .identityCertification := by
      rw [show row.model = .user from congrArg Prod.fst hkey]
      decide
    obtain ⟨row', hrow', hsame⟩ := h.kept row hrow hmodel (by rw [hkey, gone_user]; exact hnot)
    exact List.mem_map.mpr ⟨row', hrow', hsame.key.trans hkey⟩

/-- What the command does not link to the target is deleted with the account. -/
theorem gone_of_belongs {record : Model × Nat} {account : Nat} (h : Belongs db record account)
    (hmodel : record.1 ≠ .jobApplication ∧ record.1 ≠ .eligibilityDiagnosis) {deleted : List Nat}
    (hdeleted : account ∈ deleted) : Gone db deleted record := by
  obtain ⟨row, hrow, rfl, ⟨r, hr, hfk⟩ | ⟨group, hgroup, hbeneficiary, hfk⟩⟩ := h
  · have hrowModel : r.foreignKey.model = row.model := model_of_fk (db.formed row hrow) hfk
    simp only [recordRelations, List.mem_cons, List.not_mem_nil, or_false] at hr
    rcases hr with rfl | rfl | rfl | rfl | rfl
    · exact absurd hrowModel.symm hmodel.1
    · exact absurd hrowModel.symm hmodel.2
    · exact gone_of_link hrow hmodel.2 hfk rfl (gone_of_mem hdeleted)
    · exact gone_of_link hrow hmodel.2 hfk rfl (gone_of_mem hdeleted)
    · exact gone_of_link hrow hmodel.2 hfk rfl (gone_of_mem hdeleted)
  · have hgroupModel : Model.followUpGroup = group.model := model_of_fk (db.formed group hgroup) hbeneficiary
    have hgone : Gone db deleted group.key := by
      refine gone_of_link hgroup ?_ hbeneficiary rfl (gone_of_mem hdeleted)
      rw [← hgroupModel]
      decide
    rw [Row.key, ← hgroupModel] at hgone
    exact gone_of_link hrow hmodel.2 hfk rfl hgone

theorem not_belongs_of_gone {record : Model × Nat} {account : Nat} (h : Merged db merged s)
    (hgone : Gone db (merged.map Prod.fst) record) : ¬ Belongs s record account := by
  rintro ⟨row', hrow', rfl, -⟩
  obtain ⟨row, -, hleft, hsame⟩ := h.comes row' hrow'
  exact hleft (hsame.key ▸ hgone)

/-- What the command links to the target belongs to it. -/
theorem belongs_of_merged {record : Model × Nat} {user target : Nat} (h : Merged db merged s)
    (hnodup : (merged.map Prod.fst).Nodup) (hmerged : (user, target) ∈ merged) (hbelongs : Belongs db record user)
    (hmodel : record.1 = .jobApplication ∨ record.1 = .eligibilityDiagnosis) : Belongs s record target := by
  obtain ⟨row, hrow, rfl, ⟨r, hr, hfk⟩ | ⟨group, -, -, hfk⟩⟩ := hbelongs
  · have hrowModel : r.foreignKey.model = row.key.1 := model_of_fk (db.formed row hrow) hfk
    have hjobSeeker : r ∈ [Relation.jobApplicationJobSeeker, .eligibilityDiagnosisJobSeeker] := by
      rw [← hrowModel] at hmodel
      revert hr hmodel
      cases r <;> decide
    have hkept : row.model ≠ .identityCertification ∧ ¬ Gone db (merged.map Prod.fst) row.key := by
      rcases hmodel with hmodel | hmodel
      · rw [show row.model = .jobApplication from hmodel, show row.key = (.jobApplication, row.pk) from
          congrArg (·, row.pk) hmodel]
        exact ⟨by decide, not_gone_application⟩
      · rw [show row.model = .eligibilityDiagnosis from hmodel, show row.key = (.eligibilityDiagnosis, row.pk) from
          congrArg (·, row.pk) hmodel]
        exact ⟨by decide, not_gone_diagnosis⟩
    obtain ⟨row', hrow', hsame⟩ := h.kept row hrow hkept.1 hkept.2
    refine ⟨row', hrow', hsame.key, .inl ⟨r, hr, ?_⟩⟩
    rw [hsame.jobSeeker r hjobSeeker, hfk, Option.map_some, moved, (Schema.lookup_eq_some_iff_mem hnodup).mpr hmerged,
      Option.getD_some]
  · have hrowModel : Model.followUpGroupMembership = row.model := model_of_fk (db.formed row hrow) hfk
    rcases hmodel with hmodel | hmodel <;> cases hrowModel.trans hmodel

theorem nodup_merges (db : Database) : ((merges db).map Prod.fst).Nodup := by
  rw [merges, List.map_flatMap]
  exact nodup_flatMap_groups db (fun _ hgroup => nodup_groupMerges (isGroup_of_mem hgroup).1)
    fun _ _ hpk => fst_mem_groupMerges hpk

theorem mem_merges {group : String × List Account} (hgroup : group ∈ getDuplicatesByPoleEmploiId db)
    (heasy : isEasy group.2 = true) (htarget : chooseTarget group.2 = some target) (ha : a ∈ group.2)
    (hne : a.pk ≠ target.pk) : (a.pk, target.pk) ∈ merges db :=
  List.mem_flatMap.mpr ⟨group, hgroup, mem_groupMerges.mpr ⟨heasy, target, htarget, a, ha, hne, rfl⟩⟩

/-- The accounts that are not merged: the targets, and those of the other groups. -/
theorem not_mem_merges {group : String × List Account} (hgroup : group ∈ getDuplicatesByPoleEmploiId db)
    (ha : a ∈ group.2) (hleft : isEasy group.2 = true → chooseTarget group.2 = some a) :
    a.pk ∉ (merges db).map Prod.fst := by
  intro hmem
  obtain ⟨merge, hmerge, hpk⟩ := List.mem_map.mp hmem
  obtain ⟨group', hgroup', hmerge⟩ := List.mem_flatMap.mp hmerge
  obtain ⟨heasy, target, htarget, b, hb, hne, rfl⟩ := mem_groupMerges.mp hmerge
  obtain rfl := eq_group hgroup hgroup' ha hb hpk.symm
  obtain rfl := Option.some.inj ((hleft heasy).symm.trans htarget)
  exact hne hpk

theorem not_geiqDiagnosis (h : NothingToLose db) {merge : Nat × Nat} (hmerge : merge ∈ merges db) :
    ∀ row ∈ db.rows, row.fk .geiqEligibilityDiagnosisJobSeeker ≠ some merge.1 := by
  intro row hrow hfk
  have hmodel : Model.geiqEligibilityDiagnosis = row.key.1 := model_of_fk (db.formed row hrow) hfk
  have hbelongs : Belongs db row.key merge.1 :=
    ⟨row, hrow, rfl, .inl ⟨.geiqEligibilityDiagnosisJobSeeker, by decide, hfk⟩⟩
  rcases h.records merge hmerge row.key hbelongs with hrecord | hrecord <;> cases hmodel.trans hrecord

/-- The accounts of a group that is merged, after the run. -/
theorem mergedInto {group : String × List Account} (h : Merged db (merges db) s)
    (hgroup : group ∈ getDuplicatesByPoleEmploiId db) (heasy : isEasy group.2 = true)
    (htarget : chooseTarget group.2 = some target) (happroval : ∀ x ∈ target.approvals, ∀ y ∈ target.approvals, x = y)
    (hrecords : ∀ merge ∈ merges db, ∀ record, Belongs db record merge.1 →
      record.1 = .jobApplication ∨ record.1 = .eligibilityDiagnosis)
    (hnir : ∀ a ∈ group.2, a.profile.nir ≠ "" → HasNir s target.pk a.profile.nir) :
    MergedInto db s group.2 target where
  mem := target_mem htarget
  left := by
    have hmem := (isGroup_of_mem hgroup).1.mem target (target_mem htarget)
    exact (hasUser_iff h hmem).mpr (not_mem_merges hgroup (target_mem htarget) fun _ => htarget)
  deleted a ha hne := by
    rw [hasUser_iff h ((isGroup_of_mem hgroup).1.mem a ha), not_not]
    exact List.mem_map_of_mem (mem_merges hgroup heasy htarget ha hne)
  oneNir a ha b hb hanir hbnir := eq_of_length_le_one (isEasy_iff.mp heasy).1 (mem_nirs ha hanir) (mem_nirs hb hbnir)
  oneApproval a ha b hb x hx y hy := by
    have hhas {account : Account} {approval : Nat} (h : approval ∈ account.approvals) :
        account.hasApproval = true := by
      rw [Account.hasApproval, Bool.not_eq_true', List.isEmpty_eq_false_iff]
      exact List.ne_nil_of_mem h
    obtain rfl := eq_target_of_hasApproval heasy htarget ha (hhas hx)
    obtain rfl := eq_target_of_hasApproval heasy htarget hb (hhas hy)
    exact happroval x hx y hy
  records a ha hne record hbelongs := by
    have hmerge := mem_merges hgroup heasy htarget ha hne
    exact belongs_of_merged h (nodup_merges db) hmerge hbelongs (hrecords _ hmerge record hbelongs)
  nir := hnir

theorem losesNothing_of_nothingToLose (h : NothingToLose db) : LosesNothing db where
  group group hgroup := by
    obtain ⟨hspec, hid⟩ := isGroup_of_mem hgroup
    exact ⟨hspec.nodup, hspec.two, fun a ha b hb =>
      ⟨(hid a ha).trans (hid b hb).symm, sameBirthdate_iff.mp hspec.birthdate a ha b hb⟩⟩
  run := by
    have hstart : Merged db [] db := after_start db
    obtain ⟨db', hrun⟩ := handleGroups_succeeds (areLeft_start db) hstart h.emails
      (fun _ hmerge => not_geiqDiagnosis h hmerge) h.unblocked
    obtain ⟨hmerged, -, hnirs⟩ := after_handleGroups (areLeft_start db) hstart hrun
    rw [List.nil_append, ← merges] at hmerged
    refine ⟨db', hrun, fun group hgroup => ?_⟩
    by_cases heasy : isEasy group.2 = true
    · obtain ⟨target, htarget⟩ := (isGroup_of_mem hgroup).1.exists_target
      exact .inr ⟨target, mergedInto hmerged hgroup heasy htarget (h.approval group hgroup heasy target htarget)
        h.records (hnirs group hgroup heasy target htarget).2⟩
    · refine .inl fun a ha => (hasUser_iff hmerged ((isGroup_of_mem hgroup).1.mem a ha)).mpr ?_
      exact not_mem_merges hgroup ha fun hcontra => absurd hcontra heasy

theorem exists_isNot (hgroup : IsGroup db duplicates) (target : Account) : ∃ a ∈ duplicates, a.pk ≠ target.pk := by
  have htwo := hgroup.two
  have hnodup := hgroup.nodup
  cases duplicates with
  | nil => exact absurd htwo (by decide)
  | cons a rest =>
      cases rest with
      | nil => exact absurd htwo (Nat.not_succ_le_self 1)
      | cons b rest =>
          by_cases ha : a.pk = target.pk
          · refine ⟨b, List.mem_cons_of_mem a List.mem_cons_self, fun hb => ?_⟩
            exact (List.nodup_cons.mp hnodup).1 (List.mem_cons.mpr (.inl (ha.trans hb.symm)))
          · exact ⟨a, List.mem_cons_self, ha⟩

/-- A group that is merged is merged into the account that the command chooses. -/
theorem nothingToLose_of_losesNothing (h : LosesNothing db) : NothingToLose db := by
  obtain ⟨db', hrun, hgroups⟩ := h.run
  have hstart : Merged db [] db := after_start db
  obtain ⟨hmerged, hunblocked, hnirs⟩ := after_handleGroups (areLeft_start db) hstart hrun
  rw [List.nil_append, ← merges] at hmerged
  have hinto : ∀ group ∈ getDuplicatesByPoleEmploiId db, isEasy group.2 = true → ∀ target,
      chooseTarget group.2 = some target → MergedInto db db' group.2 target := by
    intro group hgroup heasy target htarget
    have hspec := (isGroup_of_mem hgroup).1
    obtain ⟨a, ha, hne⟩ := exists_isNot hspec target
    have hdeleted : ¬ HasUser db' a.pk := by
      rw [hasUser_iff hmerged (hspec.mem a ha), not_not]
      exact List.mem_map_of_mem (mem_merges hgroup heasy htarget ha hne)
    rcases hgroups group hgroup with hall | ⟨target', hinto⟩
    · exact absurd (hall a ha) hdeleted
    · have hleft := hinto.left
      rw [hasUser_iff hmerged (hspec.mem target' hinto.mem)] at hleft
      by_cases hpk : target'.pk = target.pk
      · obtain rfl := eq_of_pk_eq hspec.nodup hinto.mem (target_mem htarget) hpk
        exact hinto
      · exact absurd (List.mem_map_of_mem (mem_merges hgroup heasy htarget hinto.mem hpk)) hleft
  refine ⟨fun group hgroup heasy target htarget => (hnirs group hgroup heasy target htarget).1,
    fun group hgroup heasy target htarget x hx y hy => ?_, fun merge hmerge record hbelongs => ?_, hunblocked⟩
  · exact (hinto group hgroup heasy target htarget).oneApproval target (target_mem htarget) target (target_mem htarget)
      x hx y hy
  · by_contra hmodel
    obtain ⟨group, hgroup, hmem⟩ := List.mem_flatMap.mp hmerge
    obtain ⟨heasy, target, htarget, a, ha, hne, rfl⟩ := mem_groupMerges.mp hmem
    have hgone := gone_of_belongs hbelongs (not_or.mp hmodel) (List.mem_map_of_mem hmerge)
    exact not_belongs_of_gone hmerged hgone ((hinto group hgroup heasy target htarget).records a ha hne record hbelongs)

/-- A run ends and loses nothing exactly when there is nothing to lose but what the command links to the targets. -/
theorem losesNothing_iff (db : Database) : LosesNothing db ↔ NothingToLose db :=
  ⟨nothingToLose_of_losesNothing, losesNothing_of_nothingToLose⟩

/-- Two accounts with the same France Travail number and the same birthdate. A professional follows the second one. -/
def followedDuplicate : Database where
  rows := [⟨.user, 1, [], { email := some "pierre@example.com" }⟩, ⟨.user, 2, [], { email := some "piere@example.com" }⟩,
    ⟨.user, 3, [], { email := some "anne@example.com", kind := .professional }⟩,
    ⟨.jobSeekerProfile, 1, [(.jobSeekerProfileUser, 1)], { poleEmploiId := "6666666A" }⟩,
    ⟨.jobSeekerProfile, 2, [(.jobSeekerProfileUser, 2)], { poleEmploiId := "6666666A" }⟩,
    ⟨.followUpGroup, 10, [(.followUpGroupBeneficiary, 2)], {}⟩,
    ⟨.followUpGroupMembership, 11, [(.followUpGroupMembershipFollowUpGroup, 10), (.followUpGroupMembershipMember, 3)], {}⟩]
  nodup := by decide
  formed := by decide
  accepted := by decide

theorem not_losesNothing_followedDuplicate : ¬ LosesNothing followedDuplicate := by
  intro h
  have hmerge : (2, 1) ∈ merges followedDuplicate := by decide
  have hbelongs : Belongs followedDuplicate (.followUpGroupMembership, 11) 2 :=
    ⟨⟨.followUpGroupMembership, 11, [(.followUpGroupMembershipFollowUpGroup, 10), (.followUpGroupMembershipMember, 3)], {}⟩,
      by simp [followedDuplicate], rfl,
      .inr ⟨⟨.followUpGroup, 10, [(.followUpGroupBeneficiary, 2)], {}⟩, by simp [followedDuplicate], rfl, rfl⟩⟩
  have hrecord := (nothingToLose_of_losesNothing h).records (2, 1) hmerge _ hbelongs
  revert hrecord
  decide

end Itou.DeduplicateJobSeekers
