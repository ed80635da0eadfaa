import Itou.Prolongations.Lemmas.Answers
import Itou.Prolongations.Views

/-!
# Steps and answers

A step gives an answer that stays exactly when it does not answer a request that was answered the other way.
-/

namespace Itou.Prolongations

open Itou.Lib Itou.Approvals

/-! ## Valid forms -/

section Forms

variable {db : Db}

/-- The period of a valid form starts where the approval that was read ends, lasts a day at least, and does not exceed
the limit of its reason. -/
structure Db.Allows (db : Db) (pk : Nat) (approvalEndAt : Int) (p : CommonProlongation) : Prop where
  approvalId : p.approvalId = pk
  startAt : p.startAt = approvalEndAt
  duration : 1 ≤ p.duration
  endAt : p.endAt ≤ db.maxEndAt pk approvalEndAt p.reason

theorem allows_of_clean {pk : Nat} {startAt : Int} {siae : Company} {p : CommonProlongation}
    (happroval : p.approvalId = pk) (hstart : p.startAt = startAt) (h : db.clean pk startAt siae p = true) :
    db.Allows pk startAt p := by
  simp only [Db.clean, Bool.and_eq_true, decide_eq_true_eq] at h
  exact ⟨happroval, hstart, h.1.1.1.1, hstart ▸ h.1.1.1.2⟩

theorem validForm_eq_some {pk : Nat} {startAt : Int} {siae : Company} {data : FormData} {p : Instance}
    (h : db.validForm pk startAt siae data = some p) : db.Allows pk startAt p.toCommonProlongation ∧
      match p with
      | .prolongation p => p.request = none
      | .request r => r.status = .pending := by
  simp only [Db.validForm, Option.ite_none_right_eq_some] at h
  obtain ⟨-, -, h⟩ := h
  split at h
  · split at h
    · simp only [Option.ite_none_right_eq_some, Bool.and_eq_true, Option.some.injEq] at h
      obtain ⟨⟨-, hclean⟩, rfl⟩ := h
      exact ⟨allows_of_clean rfl rfl hclean, rfl⟩
    · cases h
  · simp only [Option.ite_none_right_eq_some, Option.some.injEq] at h
    obtain ⟨hclean, rfl⟩ := h
    exact ⟨allows_of_clean rfl rfl hclean, rfl⟩

end Forms

section Steps

variable {addMonths : Int → Int → Int} {s s' : State} {a : Action} {db db' : Db} {now : DateTime}

/-! ## The invariant -/

theorem isCopy_mono (hgrows : ∀ pk ∈ db.requests, pk ∈ db'.requests) (hkeeps : db.KeepsAnswers db') {tab : Tab}
    (h : tab.IsCopy db) : tab.IsCopy db' := by
  cases tab with
  | approval pk a => trivial
  | form siae p => cases p <;> exact h
  | request pk r =>
      obtain ⟨row, hrow, hgranted⟩ := h
      obtain ⟨row', hrow'⟩ := Option.isSome_iff_exists.mp (AList.lookup_isSome.mpr
        (hgrows pk (AList.lookup_isSome.mp (Option.isSome_of_eq_some hrow))))
      refine ⟨row', hrow', fun hr => ?_⟩
      have hrowGranted := hgranted hr
      obtain ⟨row'', hrow'', hstatus, -⟩ := keepsAnswers_iff.mp hkeeps pk row hrow (by rw [hrowGranted]; decide)
      rw [hrow', Option.some.injEq] at hrow''
      rw [hrow'', hstatus, hrowGranted]

theorem foreignKeys_of_insertProlongation {p : Prolongation} (hkeys : db.ForeignKeys)
    (hrequest : ∀ pk, p.request = some pk → pk ∈ db.requests) (h : db.insertProlongation now p = some db') :
    db'.ForeignKeys ∧ db'.requests = db.requests := by
  obtain ⟨a, -, -, -, rfl⟩ := insertProlongation_eq_some h
  refine ⟨⟨fun q hq => ?_, hkeys.denyInformation⟩, rfl⟩
  rw [rows_insert_freshKey] at hq
  rcases List.mem_cons.mp hq with rfl | hq
  · exact hrequest
  · exact hkeys.prolongation q hq

theorem foreignKeys_of_requests (hkeys : db.ForeignKeys) {requests : Table ProlongationRequest}
    (hgrows : ∀ pk ∈ db.requests, pk ∈ requests) : ({ db with requests := requests } : Db).ForeignKeys :=
  ⟨fun p hp pk h => hgrows pk (hkeys.prolongation p hp pk h), fun i hi => hgrows _ (hkeys.denyInformation i hi)⟩

theorem mem_insert_of_mem {ρ : Type} {t : Table ρ} {k k' : Nat} {r : ρ} (h : k ∈ t) : k ∈ t.insert k' r :=
  AList.mem_insert _ |>.mpr (Or.inr h)

/-- What the views write keeps the references, and removes no request. -/
theorem saveInstance_keys (hkeys : db.ForeignKeys) {user : Nat} {siae : Company} {reportFile : Option Nat}
    {p : Instance} (hp : (Tab.form siae p).IsCopy db) (h : db.saveInstance now user siae reportFile p = some db') :
    db'.ForeignKeys ∧ ∀ pk ∈ db.requests, pk ∈ db'.requests := by
  cases p with
  | prolongation p =>
      obtain ⟨hkeys', hrequests⟩ := foreignKeys_of_insertProlongation hkeys (fun pk h => by
        rw [show p.request = none from hp] at h
        cases h) h
      exact ⟨hkeys', fun pk hpk => hrequests ▸ hpk⟩
  | request r =>
      obtain rfl := insertRequest_eq_some h
      exact ⟨foreignKeys_of_requests hkeys fun pk hpk => mem_insert_of_mem hpk, fun pk hpk => mem_insert_of_mem hpk⟩

theorem grant_keys (hkeys : db.ForeignKeys) {pk user : Nat} {r : ProlongationRequest} (hpk : pk ∈ db.requests)
    (h : db.grant now pk r user = some db') : db'.ForeignKeys ∧ ∀ pk ∈ db.requests, pk ∈ db'.requests := by
  unfold Db.grant at h
  obtain ⟨next, hnext, hdb'⟩ := Option.map_eq_some_iff.mp h
  subst hdb'
  obtain ⟨hkeys', hrequests⟩ := foreignKeys_of_insertProlongation hkeys (fun pk' h => by
    cases h
    exact hpk) hnext
  refine ⟨foreignKeys_of_requests hkeys' fun pk' hpk' => mem_insert_of_mem hpk', fun pk' hpk' => ?_⟩
  exact mem_insert_of_mem (hrequests ▸ hpk')

theorem deny_keys (hkeys : db.ForeignKeys) {pk user : Nat} {r : ProlongationRequest} {information : DenyInformation}
    (hpk : pk ∈ db.requests) (h : db.deny now pk r user information = some db') :
    db'.ForeignKeys ∧ ∀ pk ∈ db.requests, pk ∈ db'.requests := by
  unfold Db.deny at h
  obtain ⟨next, hnext, hdb'⟩ := Option.map_eq_some_iff.mp h
  subst hdb'
  obtain ⟨-, rfl⟩ := insertDenyInformation_eq_some.mp hnext
  refine ⟨⟨fun p hp pk' h => mem_insert_of_mem (hkeys.prolongation p hp pk' h), fun i hi => ?_⟩,
    fun pk' hpk' => mem_insert_of_mem hpk'⟩
  change i ∈ Table.rows (AList.insert _ _ _) at hi
  rw [rows_insert_freshKey] at hi
  rcases List.mem_cons.mp hi with rfl | hi
  · exact mem_insert_of_mem hpk
  · exact mem_insert_of_mem (hkeys.denyInformation i hi)

/-! ## One step -/

/-- What a step does: it reads, or it writes what one of the views makes of its tab. -/
theorem step_cases (h : s.step addMonths a = some s') :
    (s'.db = s.db ∧ (∀ tab ∈ s'.tabs, tab ∈ s.tabs ∨
      match tab with
      | .approval pk approval => s.db.approvals.lookup pk = some approval
      | .form siae p => ∃ pk approval data, Tab.approval pk approval ∈ s.tabs ∧
          s.db.validForm pk approval.endAt siae data = some p
      | .request pk r => s.db.requests.lookup pk = some r) ∧ s.AnswersPending a) ∨
    (∃ i siae p user reportFile now, a = .save i user reportFile now ∧ s.tabs[i]? = some (.form siae p) ∧
      s'.db = (s.db.saveInstance now user siae reportFile p).getD s.db ∧ s'.tabs = s.tabs.eraseIdx i) ∨
    (∃ i pk r user now, a = .grant i user now ∧ s.tabs[i]? = some (.request pk r) ∧
      s'.db = s.db.grantView now pk r user ∧ s'.tabs = s.tabs.eraseIdx i) ∨
    ∃ i pk r user information now, a = .deny i user information now ∧ s.tabs[i]? = some (.request pk r) ∧
      s'.db = s.db.denyView now pk r user information ∧ s'.tabs = s.tabs.eraseIdx i := by
  cases a with
  | openApproval pk =>
      obtain ⟨approval, happroval, rfl⟩ := Option.map_eq_some_iff.mp h
      refine Or.inl ⟨rfl, fun tab htab => ?_, trivial⟩
      rcases List.mem_append.mp htab with htab | htab
      · exact Or.inl htab
      · rw [List.mem_singleton.mp htab]
        exact Or.inr happroval
  | validate i siae data today elsewhere =>
      simp only [State.step] at h
      split at h
      · rename_i pk approval htab
        split at h
        · obtain ⟨p, hp, rfl⟩ := Option.map_eq_some_iff.mp h
          refine Or.inl ⟨rfl, fun tab hmem => ?_, trivial⟩
          rcases List.mem_or_eq_of_mem_set hmem with hmem | rfl
          · exact Or.inl hmem
          · exact Or.inr ⟨pk, approval, data, List.mem_of_getElem? htab, hp⟩
        · cases h
      · cases h
  | save i user reportFile now =>
      simp only [State.step] at h
      split at h
      · rename_i siae p htab
        cases h
        exact Or.inr (Or.inl ⟨i, siae, p, user, reportFile, now, rfl, htab, rfl, rfl⟩)
      · cases h
  | openRequest organization pk =>
      obtain ⟨r, hr, h⟩ := Option.bind_eq_some_iff.mp h
      split at h
      · cases h
        refine Or.inl ⟨rfl, fun tab htab => ?_, trivial⟩
        rcases List.mem_append.mp htab with htab | htab
        · exact Or.inl htab
        · rw [List.mem_singleton.mp htab]
          exact Or.inr hr
      · cases h
  | grant i user now =>
      simp only [State.step] at h
      split at h
      · rename_i pk r htab
        cases h
        exact Or.inr (Or.inr (Or.inl ⟨i, pk, r, user, now, rfl, htab, rfl, rfl⟩))
      · cases h
  | deny i user information now =>
      simp only [State.step] at h
      split at h
      · rename_i pk r htab
        cases h
        exact Or.inr (Or.inr (Or.inr ⟨i, pk, r, user, information, now, rfl, htab, rfl, rfl⟩))
      · cases h

/-- A valid form declares what is not answered. -/
theorem isCopy_of_validForm {pk : Nat} {startAt : Int} {siae : Company} {data : FormData} {p : Instance}
    (h : db.validForm pk startAt siae data = some p) : (Tab.form siae p).IsCopy db' := by
  have hnew := (validForm_eq_some h).2
  cases p with
  | prolongation p => exact hnew
  | request r => exact hnew

/-- The invariant, along the steps that keep the answers. -/
theorem sound_step (hs : s.Sound) (hkeeps : s.db.KeepsAnswers s'.db) (h : s.step addMonths a = some s') : s'.Sound := by
  have hold : (∀ pk ∈ s.db.requests, pk ∈ s'.db.requests) → ∀ {i}, s'.tabs = s.tabs.eraseIdx i →
      ∀ tab ∈ s'.tabs, tab.IsCopy s'.db := by
    intro hgrows i htabs tab htab
    rw [htabs] at htab
    exact isCopy_mono hgrows hkeeps (hs.tabs tab (List.mem_of_mem_eraseIdx htab))
  rcases step_cases h with ⟨hdb, htabs, -⟩ | ⟨i, siae, p, user, reportFile, now, -, htab, hdb, htabs⟩ |
    ⟨i, pk, r, user, now, -, htab, hdb, htabs⟩ | ⟨i, pk, r, user, information, now, -, htab, hdb, htabs⟩
  · refine ⟨hdb ▸ hs.foreignKeys, fun tab htab => hdb ▸ ?_⟩
    rcases htabs tab htab with hmem | hnew
    · exact hs.tabs tab hmem
    · cases tab with
      | approval pk approval => trivial
      | form siae p =>
          obtain ⟨pk, approval, data, -, hvalid⟩ := hnew
          exact isCopy_of_validForm hvalid
      | request pk r => exact ⟨r, hnew, id⟩
  · cases hsave : s.db.saveInstance now user siae reportFile p with
    | none =>
        rw [hsave, Option.getD_none] at hdb
        exact ⟨hdb ▸ hs.foreignKeys, hold (fun pk hpk => hdb ▸ hpk) htabs⟩
    | some db' =>
        rw [hsave, Option.getD_some] at hdb
        obtain ⟨hkeys, hgrows⟩ := saveInstance_keys hs.foreignKeys (hs.tabs _ (List.mem_of_getElem? htab)) hsave
        exact ⟨hdb ▸ hkeys, hold (hdb ▸ hgrows) htabs⟩
  · obtain ⟨row, hrow, -⟩ := hs.tabs _ (List.mem_of_getElem? htab)
    have hpk := AList.lookup_isSome.mp (Option.isSome_of_eq_some hrow)
    unfold Db.grantView at hdb
    split at hdb
    · exact ⟨hdb ▸ hs.foreignKeys, hold (fun pk hpk => hdb ▸ hpk) htabs⟩
    · cases hgrant : s.db.grant now pk r user with
      | none =>
          rw [hgrant, Option.getD_none] at hdb
          exact ⟨hdb ▸ hs.foreignKeys, hold (fun pk hpk => hdb ▸ hpk) htabs⟩
      | some db' =>
          rw [hgrant, Option.getD_some] at hdb
          obtain ⟨hkeys, hgrows⟩ := grant_keys hs.foreignKeys hpk hgrant
          exact ⟨hdb ▸ hkeys, hold (hdb ▸ hgrows) htabs⟩
  · obtain ⟨row, hrow, -⟩ := hs.tabs _ (List.mem_of_getElem? htab)
    have hpk := AList.lookup_isSome.mp (Option.isSome_of_eq_some hrow)
    unfold Db.denyView at hdb
    cases hdeny : s.db.deny now pk r user information with
    | none =>
        rw [hdeny, Option.getD_none] at hdb
        exact ⟨hdb ▸ hs.foreignKeys, hold (fun pk hpk => hdb ▸ hpk) htabs⟩
    | some db' =>
        rw [hdeny, Option.getD_some] at hdb
        obtain ⟨hkeys, hgrows⟩ := deny_keys hs.foreignKeys hpk hdeny
        exact ⟨hdb ▸ hkeys, hold (hdb ▸ hgrows) htabs⟩

/-! ## Exactly -/

theorem keepsAnswers_step (h : s.step addMonths a = some s') :
    s.KeepsAnswers addMonths a ↔ s.db.KeepsAnswers s'.db := by
  unfold State.KeepsAnswers
  rw [h]
  simp

/-- One step gives coherent answers, and keeps those given, exactly when it answers no request answered the other
way. -/
theorem coherent_step_iff (hs : s.Sound) (hcoherent : s.db.Coherent) (h : s.step addMonths a = some s') :
    s'.db.Coherent ∧ s.KeepsAnswers addMonths a ↔ s.AnswersPending a := by
  rw [keepsAnswers_step h]
  have hsame : s'.db = s.db → s'.db.Coherent ∧ s.db.KeepsAnswers s'.db := by
    intro heq
    rw [heq]
    exact ⟨hcoherent, keepsAnswers_refl _⟩
  rcases step_cases h with ⟨hdb, -, hpending⟩ | ⟨i, siae, p, user, reportFile, now, rfl, htab, hdb, -⟩ |
    ⟨i, pk, r, user, now, rfl, htab, hdb, -⟩ | ⟨i, pk, r, user, information, now, rfl, htab, hdb, -⟩
  · exact ⟨fun _ => hpending, fun _ => hsame hdb⟩
  · refine ⟨fun _ => trivial, fun _ => ?_⟩
    cases hsave : s.db.saveInstance now user siae reportFile p with
    | none =>
        rw [hsave, Option.getD_none] at hdb
        exact hsame hdb
    | some db' =>
        rw [hsave, Option.getD_some] at hdb
        rw [hdb]
        have hcopy := hs.tabs _ (List.mem_of_getElem? htab)
        cases p with
        | prolongation p =>
            exact coherent_of_insertProlongation
              (p := { p with toCommonProlongation := p.declared user siae reportFile }) hcoherent hcopy hsave
        | request r =>
            exact coherent_of_insertRequest
              (r := { r with toCommonProlongation := r.declared user siae reportFile }) hcoherent hs.foreignKeys hcopy hsave
  · obtain ⟨row, hrow, hgranted⟩ := hs.tabs _ (List.mem_of_getElem? htab)
    simp only [State.AnswersPending, htab, Option.bind_some, Tab.request?, hrow, Option.mem_some_iff, forall_eq']
    unfold Db.grantView at hdb
    split at hdb
    · rename_i hr
      refine ⟨fun _ hdenied => ?_, fun _ => hsame hdb⟩
      rw [hgranted hr] at hdenied
      cases hdenied
    · cases hgrant : s.db.grant now pk r user with
      | none =>
          rw [hgrant, Option.getD_none] at hdb
          refine ⟨fun _ _ haccepts => ?_, fun _ => hsame hdb⟩
          have hsome : (s.db.insertProlongation now _).isSome = true := insertProlongation_isSome.mpr haccepts
          obtain ⟨next, hnext⟩ := Option.isSome_iff_exists.mp hsome
          simp [Db.grant, hnext] at hgrant
      | some db' =>
          rw [hgrant, Option.getD_some] at hdb
          rw [hdb]
          obtain ⟨haccepts, -, -, hrequests⟩ := grant_eq_some hgrant
          cases hstatus : row.status with
          | pending =>
              exact ⟨fun _ h => (nomatch h), fun _ => coherent_of_grant hcoherent hrow hstatus hgrant⟩
          | granted =>
              have hcount := ((coherent_iff.mp hcoherent pk row hrow).1).mp hstatus
              rw [prolongationCount_of_accepts rfl haccepts] at hcount
              cases hcount
          | denied =>
              constructor
              · rintro ⟨-, hkeeps⟩
                exact absurd hkeeps (not_keepsAnswers hrow (by rw [hstatus]; decide) (by rw [hstatus]; decide) hrequests)
              · intro hnot
                exact absurd haccepts (hnot rfl)
  · obtain ⟨row, hrow, -⟩ := hs.tabs _ (List.mem_of_getElem? htab)
    simp only [State.AnswersPending, htab, Option.bind_some, Tab.request?, hrow, Option.mem_some_iff, forall_eq']
    unfold Db.denyView at hdb
    cases hdeny : s.db.deny now pk r user information with
    | none =>
        rw [hdeny, Option.getD_none] at hdb
        refine ⟨fun _ _ haccepts => ?_, fun _ => hsame hdb⟩
        have hpk := AList.lookup_isSome.mp (Option.isSome_of_eq_some hrow)
        have hinsert : s.db.insertDenyInformation { information with request := pk } = some _ :=
          insertDenyInformation_eq_some.mpr ⟨⟨hpk, haccepts⟩, rfl⟩
        simp [Db.deny, hinsert] at hdeny
    | some db' =>
        rw [hdeny, Option.getD_some] at hdb
        rw [hdb]
        obtain ⟨haccepts, -, -, hrequests⟩ := deny_eq_some hdeny
        cases hstatus : row.status with
        | pending => exact ⟨fun _ h => (nomatch h), fun _ => coherent_of_deny hcoherent hrow hstatus hdeny⟩
        | denied =>
            have hcount := ((coherent_iff.mp hcoherent pk row hrow).2.1.mp hstatus).1
            rw [denyCount_of_accepts haccepts] at hcount
            cases hcount
        | granted =>
            constructor
            · rintro ⟨-, hkeeps⟩
              exact absurd hkeeps (not_keepsAnswers hrow (by rw [hstatus]; decide) (by rw [hstatus]; decide) hrequests)
            · intro hnot
              exact absurd haccepts (hnot rfl)

end Steps

end Itou.Prolongations
