import Itou.Prolongations.Clean
import Itou.Prolongations.Lemmas.AnswerSteps
import Mathlib.Algebra.Order.BigOperators.Group.List
import Mathlib.Algebra.Order.Group.Int

/-!
# Limits on the prolongations

The limit of a reason is checked on the form. Between the form and the prolongation, either the approval still ends
where it did, and its prolongations are the same, or one of them covers that day, and the constraint refuses another.
-/

namespace Itou.Prolongations

open Itou.Lib Itou.Approvals

/-! ## The invariant -/

/-- A day is in a prolongation of the approval. -/
def Db.Covered (db : Db) (approval : Nat) (day : Int) : Prop :=
  ∃ q ∈ db.prolongations.rows, q.approvalId = approval ∧ q.startAt ≤ day ∧ day < q.endAt

/-- A day on which the approval ended. -/
def Db.EndedAt (db : Db) (approval : Nat) (day : Int) : Prop :=
  ∃ a, db.approvals.lookup approval = some a ∧ (day = a.endAt ∨ db.Covered approval day)

/-- A period that can be added to an approval as long as the approval ends where it starts. -/
def Db.Ready (db : Db) (period : Period) (reason : Reason) : Prop :=
  1 ≤ period.duration ∧ ∃ a, db.approvals.lookup period.approvalId = some a ∧
    ((period.startAt = a.endAt ∧ ∀ limit ∈ reason.maxCumulativeDuration,
        db.cumulativeDuration period.approvalId + period.duration ≤ limit) ∨
      db.Covered period.approvalId period.startAt)

/-- What a view has read, or made of it. -/
def Tab.IsReady (db : Db) : Tab → Prop
  | .approval pk a => db.EndedAt pk a.endAt
  | .form _ p => db.Ready p.toCommonProlongation.toPeriod p.toCommonProlongation.reason
  | .request _ r => db.Ready r.toPeriod r.reason

structure Db.Inv (db : Db) : Prop where
  ends : ∀ p ∈ db.prolongations.rows, 1 ≤ p.duration ∧
    ∃ a, db.approvals.lookup p.approvalId = some a ∧ p.endAt ≤ a.endAt
  disjoint : db.Disjoint
  limited : ∀ approval later p earlier, db.prolongationsOf approval = later ++ p :: earlier →
    ∀ limit ∈ p.reason.maxCumulativeDuration, ((p :: earlier).map (·.duration)).sum ≤ limit
  requests : ∀ r ∈ db.requests.rows, db.Ready r.toPeriod r.reason

structure State.Inv (s : State) : Prop where
  db : s.db.Inv
  tabs : ∀ tab ∈ s.tabs, tab.IsReady s.db

section Limits

variable {db db' : Db} {now : DateTime} {p : Prolongation} {a : Approval}

/-- A period that starts on a day covered is refused. -/
theorem not_covered_of_accepts (haccepts : Prolongation.constraints db.prolongations p = true)
    (hduration : 1 ≤ p.duration) : ¬ db.Covered p.approvalId p.startAt := by
  rintro ⟨q, hq, happroval, hle, hlt⟩
  simp only [Prolongation.constraints, Bool.and_eq_true, List.all_eq_true, Bool.not_eq_true'] at haccepts
  have hfree := (haccepts.2 q hq).1.1
  unfold Period.duration at hduration
  have hmeet : Period.overlaps q.toPeriod p.toPeriod = true := by
    simp only [Period.overlaps, Bool.and_eq_true, decide_eq_true_eq]
    refine ⟨⟨⟨⟨happroval, ?_⟩, ?_⟩, ?_⟩, ?_⟩ <;> omega
  rw [hmeet] at hfree
  cases hfree

theorem startAt_of_ready (hready : db.Ready p.toPeriod p.reason) (ha : db.approvals.lookup p.approvalId = some a)
    (haccepts : Prolongation.constraints db.prolongations p = true) :
    p.startAt = a.endAt ∧ ∀ limit ∈ p.reason.maxCumulativeDuration,
      db.cumulativeDuration p.approvalId + p.duration ≤ limit := by
  obtain ⟨hduration, a', ha', hstart | hcovered⟩ := hready
  · rw [ha, Option.some.injEq] at ha'
    exact ha' ▸ hstart
  · exact absurd hcovered (not_covered_of_accepts haccepts hduration)

/-- The database with one more prolongation, which starts where its approval ends. -/
structure Extends (db : Db) (p : Prolongation) (a : Approval) (db' : Db) : Prop where
  approval : db.approvals.lookup p.approvalId = some a
  startAt : p.startAt = a.endAt
  duration : 1 ≤ p.duration
  rows : db'.prolongations.rows = p :: db.prolongations.rows
  approval' : ∃ a', db'.approvals.lookup p.approvalId = some a' ∧ a'.endAt = a.endAt + p.duration
  others : ∀ pk, pk ≠ p.approvalId → db'.approvals.lookup pk = db.approvals.lookup pk

theorem extends_of_insert (h : db.insertProlongation now p = some db') (hready : db.Ready p.toPeriod p.reason) :
    ∃ a, Extends db p a db' ∧ (∀ limit ∈ p.reason.maxCumulativeDuration,
      db.cumulativeDuration p.approvalId + p.duration ≤ limit) ∧
        Prolongation.constraints db.prolongations p = true ∧ db'.requests = db.requests := by
  obtain ⟨a, ha, -, hconstraints, rfl⟩ := insertProlongation_eq_some h
  obtain ⟨hstart, hlimit⟩ := startAt_of_ready hready ha hconstraints
  exact ⟨a, ⟨ha, hstart, hready.1, rows_insert_freshKey _ _, ⟨_, AList.lookup_insert _, rfl⟩,
    fun pk hne => AList.lookup_insert_ne hne⟩, hlimit, hconstraints, rfl⟩

theorem prolongationsOf_extends (h : Extends db p a db') (approval : Nat) : db'.prolongationsOf approval =
    if p.approvalId = approval then p :: db.prolongationsOf approval else db.prolongationsOf approval := by
  unfold Db.prolongationsOf
  rw [h.rows, List.filter_cons]
  simp only [decide_eq_true_eq]

theorem covered_extends (h : Extends db p a db') {approval : Nat} {day : Int} (hcovered : db.Covered approval day) :
    db'.Covered approval day := by
  obtain ⟨q, hq, hday⟩ := hcovered
  exact ⟨q, h.rows ▸ List.mem_cons_of_mem p hq, hday⟩

/-- The day on which the approval ended is covered from then on. -/
theorem covered_of_extends (h : Extends db p a db') : db'.Covered p.approvalId a.endAt := by
  refine ⟨p, h.rows ▸ List.mem_cons_self, rfl, h.startAt.le, ?_⟩
  have hduration := h.duration
  have hstart := h.startAt
  unfold Period.duration at hduration
  omega

theorem endedAt_extends (h : Extends db p a db') {approval : Nat} {day : Int} (hended : db.EndedAt approval day) :
    db'.EndedAt approval day := by
  obtain ⟨a₀, ha₀, hday⟩ := hended
  by_cases hp : approval = p.approvalId
  · subst hp
    obtain ⟨a', ha', -⟩ := h.approval'
    rw [h.approval, Option.some.injEq] at ha₀
    subst ha₀
    refine ⟨a', ha', Or.inr ?_⟩
    rcases hday with rfl | hcovered
    · exact covered_of_extends h
    · exact covered_extends h hcovered
  · exact ⟨a₀, (h.others _ hp).trans ha₀, hday.imp_right (covered_extends h)⟩

theorem ready_extends (h : Extends db p a db') {period : Period} {reason : Reason} (hready : db.Ready period reason) :
    db'.Ready period reason := by
  obtain ⟨hduration, a₀, ha₀, hstart⟩ := hready
  refine ⟨hduration, ?_⟩
  by_cases hp : period.approvalId = p.approvalId
  · obtain ⟨a', ha', -⟩ := h.approval'
    rw [hp, h.approval, Option.some.injEq] at ha₀
    subst ha₀
    refine ⟨a', hp ▸ ha', Or.inr ?_⟩
    rcases hstart with ⟨hday, -⟩ | hcovered
    · rw [hp, hday]
      exact covered_of_extends h
    · exact covered_extends h hcovered
  · refine ⟨a₀, (h.others _ hp).trans ha₀, hstart.imp (fun hlimit => ⟨hlimit.1, ?_⟩) (covered_extends h)⟩
    have hsame : db'.cumulativeDuration period.approvalId = db.cumulativeDuration period.approvalId := by
      unfold Db.cumulativeDuration
      rw [prolongationsOf_extends h, if_neg fun heq => hp heq.symm]
    rw [hsame]
    exact hlimit.2

theorem isReady_extends (h : Extends db p a db') {tab : Tab} (htab : tab.IsReady db) : tab.IsReady db' := by
  cases tab with
  | approval pk approval => exact endedAt_extends h htab
  | form siae p => exact ready_extends h htab
  | request pk r => exact ready_extends h htab

/-- The constraint refuses a prolongation that overlaps another one. -/
theorem disjoint_of_insert (hdisjoint : db.Disjoint) (h : db.insertProlongation now p = some db') : db'.Disjoint := by
  obtain ⟨a, -, -, hconstraints, rfl⟩ := insertProlongation_eq_some h
  have hfree : ∀ q ∈ db.prolongations.rows, Period.overlaps q.toPeriod p.toPeriod = false := by
    intro q hq
    simp only [Prolongation.constraints, Bool.and_eq_true, List.all_eq_true, Bool.not_eq_true'] at hconstraints
    exact (hconstraints.2 q hq).1.1
  intro approval
  rw [Db.prolongationsOf, rows_insert_freshKey, List.filter_cons]
  split
  · refine List.pairwise_cons.mpr ⟨fun q hq => ?_, hdisjoint approval⟩
    have hmeet := hfree q (List.mem_of_mem_filter hq)
    rw [Bool.eq_false_iff] at hmeet ⊢
    intro hboth
    apply hmeet
    simp only [Period.overlaps, Bool.and_eq_true, decide_eq_true_eq] at hboth ⊢
    exact ⟨⟨⟨⟨hboth.1.1.1.1.symm, hboth.1.1.2⟩, hboth.1.1.1.2⟩, hboth.2⟩, hboth.1.2⟩
  · exact hdisjoint approval

/-- One more prolongation keeps the invariant. -/
theorem inv_of_insert (hinv : db.Inv) (h : db.insertProlongation now p = some db')
    (hready : db.Ready p.toPeriod p.reason) : db'.Inv := by
  obtain ⟨a, hextends, hlimit, hconstraints, hrequests⟩ := extends_of_insert h hready
  refine ⟨fun q hq => ?_, disjoint_of_insert hinv.disjoint h, fun approval later q earlier heq => ?_, fun r hr => ?_⟩
  · rw [hextends.rows] at hq
    obtain ⟨a', ha', hend⟩ := hextends.approval'
    have hduration := hextends.duration
    have hstart := hextends.startAt
    rcases List.mem_cons.mp hq with rfl | hq
    · refine ⟨hduration, a', ha', ?_⟩
      rw [hend]
      unfold Period.duration at hduration ⊢
      omega
    · obtain ⟨hq1, a₀, ha₀, hle⟩ := hinv.ends q hq
      refine ⟨hq1, ?_⟩
      by_cases hp : q.approvalId = p.approvalId
      · rw [hp, hextends.approval, Option.some.injEq] at ha₀
        subst ha₀
        refine ⟨a', hp ▸ ha', ?_⟩
        omega
      · exact ⟨a₀, (hextends.others _ hp).trans ha₀, hle⟩
  · rw [prolongationsOf_extends hextends] at heq
    split at heq
    · rename_i hp
      cases later with
      | nil =>
          obtain ⟨rfl, rfl⟩ := List.cons.inj heq
          intro limit hmem
          have hle := hlimit limit hmem
          rw [hp] at hle
          rw [List.map_cons, List.sum_cons]
          unfold Db.cumulativeDuration at hle
          omega
      | cons first later => exact hinv.limited approval later q earlier (List.cons.inj heq).2
    · exact hinv.limited approval later q earlier heq
  · rw [hrequests] at hr
    exact ready_extends hextends (hinv.requests r hr)

/-- A prolongation for a reason respects its limit with those of the same reason: the last of them does with all those
before it. -/
theorem durationFor_le (hinv : db.Inv) (approval : Nat) {reason : Reason} {limit : Int}
    (hlimit : limit ∈ reason.maxCumulativeDuration) : db.durationFor approval reason ≤ limit := by
  have hpositive : ∀ p ∈ db.prolongationsOf approval, 0 ≤ p.duration := by
    intro p hp
    have h := (hinv.ends p (List.mem_of_mem_filter hp)).1
    omega
  have hsum : ∀ l : List Prolongation, (∀ p ∈ l, 0 ≤ p.duration) →
      ((l.filter fun p => p.reason = reason).map (·.duration)).sum ≤ (l.map (·.duration)).sum := by
    intro l hl
    induction l with
    | nil => exact le_rfl
    | cons p l ih =>
        have hp := hl p List.mem_cons_self
        have hrest := ih fun q hq => hl q (List.mem_cons_of_mem p hq)
        rw [List.filter_cons, List.map_cons, List.sum_cons]
        split
        · rw [List.map_cons, List.sum_cons]
          omega
        · omega
  have hgen : ∀ later earlier, db.prolongationsOf approval = later ++ earlier →
      ((earlier.filter fun p => p.reason = reason).map (·.duration)).sum ≤ limit := by
    intro later earlier
    induction earlier generalizing later with
    | nil =>
        intro _
        cases reason <;> cases hlimit <;> decide
    | cons p earlier ih =>
        intro heq
        rw [List.filter_cons]
        split
        · rename_i hp
          have hall := hinv.limited approval later p earlier heq limit (by rwa [of_decide_eq_true hp])
          have hle := hsum earlier fun q hq => hpositive q (by
            rw [heq]
            exact List.mem_append_right _ (List.mem_cons_of_mem p hq))
          rw [List.map_cons, List.sum_cons] at hall ⊢
          omega
        · exact ih (later ++ [p]) (by rw [heq, List.append_assoc]; rfl)
  exact hgen [] _ rfl

theorem withinLimits_of_inv (hinv : db.Inv) : db.WithinLimits :=
  fun approval => ⟨fun _ _ hlimit => durationFor_le hinv approval hlimit, hinv.limited approval⟩

/-! ## Steps -/

variable {addMonths : Int → Int → Int} {s s' : State} {action : Action}

/-- A form that is valid when the approval ends on the day that was read. -/
theorem ready_of_allows {pk : Nat} {day : Int} {c : CommonProlongation} (hended : db.EndedAt pk day)
    (hallows : db.Allows pk day c) : db.Ready c.toPeriod c.reason := by
  obtain ⟨a, ha, hday⟩ := hended
  refine ⟨hallows.duration, a, hallows.approvalId ▸ ha, ?_⟩
  rcases hday with hday | hcovered
  · refine Or.inl ⟨hallows.startAt.trans hday, fun limit hlimit => ?_⟩
    have hend := hallows.endAt
    have hstart := hallows.startAt
    simp only [Db.maxEndAt, Option.mem_def.mp hlimit] at hend
    rw [hallows.approvalId]
    unfold Period.duration
    omega
  · exact Or.inr (hallows.approvalId ▸ hallows.startAt.symm ▸ hcovered)

/-- The invariant does not read the other columns of the requests. -/
theorem inv_of_requests (hinv : db.Inv) {requests : Table ProlongationRequest} {denyInformations : Table DenyInformation}
    (hready : ∀ r ∈ requests.rows, db.Ready r.toPeriod r.reason) :
    ({ db with requests, denyInformations } : Db).Inv :=
  ⟨hinv.ends, hinv.disjoint, hinv.limited, hready⟩

/-- What a view writes keeps the invariant, and what the other views have read is still ready. -/
theorem saveInstance_inv (hinv : db.Inv) {user : Nat} {siae : Company} {reportFile : Option Nat} {p : Instance}
    (hp : (Tab.form siae p).IsReady db) (h : db.saveInstance now user siae reportFile p = some db') :
    db'.Inv ∧ ∀ tab : Tab, tab.IsReady db → tab.IsReady db' := by
  cases p with
  | prolongation p =>
      obtain ⟨a, hextends, -⟩ := extends_of_insert h hp
      exact ⟨inv_of_insert hinv h hp, fun tab htab => isReady_extends hextends htab⟩
  | request r =>
      obtain rfl := insertRequest_eq_some h
      refine ⟨inv_of_requests hinv fun x hx => ?_, fun tab htab => by cases tab <;> exact htab⟩
      rcases Table.rows_insert_cases hx with rfl | hx
      · exact hp
      · exact hinv.requests x hx

theorem grant_inv (hinv : db.Inv) {pk user : Nat} {r : ProlongationRequest} (hr : (Tab.request pk r).IsReady db)
    (h : db.grant now pk r user = some db') : db'.Inv ∧ ∀ tab : Tab, tab.IsReady db → tab.IsReady db' := by
  unfold Db.grant at h
  obtain ⟨next, hnext, hdb'⟩ := Option.map_eq_some_iff.mp h
  subst hdb'
  obtain ⟨a, hextends, -, -, -⟩ := extends_of_insert hnext hr
  have hnextInv := inv_of_insert hinv hnext hr
  refine ⟨inv_of_requests hnextInv fun x hx => ?_, fun tab htab => by
    have hready := isReady_extends hextends htab
    cases tab <;> exact hready⟩
  rcases Table.rows_insert_cases hx with rfl | hx
  · exact ready_extends hextends hr
  · exact hnextInv.requests x hx

theorem deny_inv (hinv : db.Inv) {pk user : Nat} {r : ProlongationRequest} {information : DenyInformation}
    (hr : (Tab.request pk r).IsReady db) (h : db.deny now pk r user information = some db') :
    db'.Inv ∧ ∀ tab : Tab, tab.IsReady db → tab.IsReady db' := by
  unfold Db.deny at h
  obtain ⟨next, hnext, hdb'⟩ := Option.map_eq_some_iff.mp h
  subst hdb'
  obtain ⟨-, rfl⟩ := insertDenyInformation_eq_some.mp hnext
  refine ⟨inv_of_requests hinv fun x hx => ?_, fun tab htab => by cases tab <;> exact htab⟩
  rcases Table.rows_insert_cases hx with rfl | hx
  · exact hr
  · exact hinv.requests x hx

/-- The invariant, along any step. -/
theorem inv_step (hs : s.Inv) (h : s.step addMonths action = some s') : s'.Inv := by
  have hwrite : ∀ {written : Option Db} {i : Nat}, s'.db = written.getD s.db → s'.tabs = s.tabs.eraseIdx i →
      (∀ db', written = some db' → db'.Inv ∧ ∀ tab : Tab, tab.IsReady s.db → tab.IsReady db') → s'.Inv := by
    intro written i hdb htabs hwritten
    have htab : ∀ tab ∈ s'.tabs, tab.IsReady s.db := fun tab htab => by
      rw [htabs] at htab
      exact hs.tabs tab (List.mem_of_mem_eraseIdx htab)
    cases written with
    | none => exact ⟨hdb ▸ hs.db, fun tab hmem => hdb ▸ htab tab hmem⟩
    | some db' =>
        obtain ⟨hinv, hready⟩ := hwritten db' rfl
        exact ⟨hdb ▸ hinv, fun tab hmem => hdb ▸ hready tab (htab tab hmem)⟩
  rcases step_cases h with ⟨hdb, htabs, -⟩ | ⟨i, siae, p, user, reportFile, now, -, htab, hdb, htabs⟩ |
    ⟨i, pk, r, user, now, -, htab, hdb, htabs⟩ | ⟨i, pk, r, user, information, now, -, htab, hdb, htabs⟩
  · refine ⟨hdb ▸ hs.db, fun tab hmem => hdb ▸ ?_⟩
    rcases htabs tab hmem with hmem | hnew
    · exact hs.tabs tab hmem
    · cases tab with
      | approval pk a => exact ⟨a, hnew, Or.inl rfl⟩
      | form siae p =>
          obtain ⟨pk, a, data, hmem, hvalid⟩ := hnew
          exact ready_of_allows (hs.tabs _ hmem) (validForm_eq_some hvalid).1
      | request pk r => exact hs.db.requests r (Table.mem_rows.mpr ⟨pk, hnew⟩)
  · exact hwrite hdb htabs fun db' => saveInstance_inv hs.db (hs.tabs _ (List.mem_of_getElem? htab))
  · unfold Db.grantView at hdb
    split at hdb
    · have hsame : s'.db = (none : Option Db).getD s.db := hdb
      exact hwrite hsame htabs fun _ h => nomatch h
    · exact hwrite hdb htabs fun db' => grant_inv hs.db (hs.tabs _ (List.mem_of_getElem? htab))
  · exact hwrite hdb htabs fun db' => deny_inv hs.db (hs.tabs _ (List.mem_of_getElem? htab))

/-- A prolongation that is created starts where its approval ends. -/
theorem startsAtEnd_of_insert (h : db.insertProlongation now p = some db') (hready : db.Ready p.toPeriod p.reason) :
    ∀ e ∈ db'.prolongations.entries, e ∉ db.prolongations.entries →
      ∃ approval, db.approvals.lookup e.2.approvalId = some approval ∧ e.2.startAt = approval.endAt := by
  obtain ⟨a, ha, -, hconstraints, rfl⟩ := insertProlongation_eq_some h
  intro e he hnew
  change e ∈ (db.prolongations.insert _ _).entries at he
  rw [AList.entries_insert] at he
  rcases List.mem_cons.mp he with rfl | he
  · exact ⟨a, ha, (startAt_of_ready hready ha hconstraints).1⟩
  · exact absurd ((List.kerase_sublist _ _).subset he) hnew

theorem startsAtEnd_step (hs : s.Inv) (h : s.step addMonths action = some s') : s.StartsAtEnd addMonths action := by
  intro s'' hs'' e he hnew
  rw [h, Option.mem_some_iff] at hs''
  subst hs''
  rcases step_cases h with ⟨hdb, -⟩ | ⟨i, siae, p, user, reportFile, now, -, htab, hdb, -⟩ |
    ⟨i, pk, r, user, now, -, htab, hdb, -⟩ | ⟨i, pk, r, user, information, now, -, htab, hdb, -⟩
  · exact absurd (hdb ▸ he) hnew
  · cases hsave : s.db.saveInstance now user siae reportFile p with
    | none =>
        rw [hsave, Option.getD_none] at hdb
        exact absurd (hdb ▸ he) hnew
    | some db' =>
        rw [hsave, Option.getD_some] at hdb
        rw [hdb] at he
        have hready := hs.tabs _ (List.mem_of_getElem? htab)
        cases p with
        | prolongation p => exact startsAtEnd_of_insert hsave hready e he hnew
        | request r =>
            obtain rfl := insertRequest_eq_some hsave
            exact absurd he hnew
  · unfold Db.grantView at hdb
    split at hdb
    · exact absurd (hdb ▸ he) hnew
    · cases hgrant : s.db.grant now pk r user with
      | none =>
          rw [hgrant, Option.getD_none] at hdb
          exact absurd (hdb ▸ he) hnew
      | some db' =>
          rw [hgrant, Option.getD_some] at hdb
          rw [hdb] at he
          unfold Db.grant at hgrant
          obtain ⟨next, hnext, hdb'⟩ := Option.map_eq_some_iff.mp hgrant
          subst hdb'
          exact startsAtEnd_of_insert hnext (hs.tabs _ (List.mem_of_getElem? htab)) e he hnew
  · unfold Db.denyView at hdb
    cases hdeny : s.db.deny now pk r user information with
    | none =>
        rw [hdeny, Option.getD_none] at hdb
        exact absurd (hdb ▸ he) hnew
    | some db' =>
        rw [hdeny, Option.getD_some] at hdb
        rw [hdb] at he
        obtain ⟨-, -, hprolongations, -⟩ := deny_eq_some hdeny
        exact absurd (hprolongations ▸ he) hnew

/-! ## Suspensions in between -/

theorem disjoint_step (hdisjoint : s.db.Disjoint) (h : s.step addMonths action = some s') : s'.db.Disjoint := by
  have hwrite : ∀ {written : Option Db}, s'.db = written.getD s.db → (∀ db', written = some db' → db'.Disjoint) →
      s'.db.Disjoint := by
    intro written hdb hwritten
    cases written with
    | none => exact hdb ▸ hdisjoint
    | some db' => exact hdb ▸ hwritten db' rfl
  rcases step_cases h with ⟨hdb, -⟩ | ⟨i, siae, p, user, reportFile, now, -, -, hdb, -⟩ |
    ⟨i, pk, r, user, now, -, -, hdb, -⟩ | ⟨i, pk, r, user, information, now, -, -, hdb, -⟩
  · exact hdb ▸ hdisjoint
  · refine hwrite hdb fun db' hsave => ?_
    cases p with
    | prolongation p => exact disjoint_of_insert hdisjoint hsave
    | request r =>
        obtain rfl := insertRequest_eq_some hsave
        exact hdisjoint
  · unfold Db.grantView at hdb
    split at hdb
    · exact hdb ▸ hdisjoint
    · refine hwrite hdb fun db' hgrant => ?_
      unfold Db.grant at hgrant
      obtain ⟨next, hnext, hdb'⟩ := Option.map_eq_some_iff.mp hgrant
      subst hdb'
      have hdisjoint' : next.Disjoint := disjoint_of_insert hdisjoint hnext
      exact hdisjoint'
  · refine hwrite hdb fun db' hdeny => ?_
    obtain ⟨-, -, hprolongations, -⟩ := deny_eq_some hdeny
    intro approval
    rw [Db.prolongationsOf, hprolongations]
    exact hdisjoint approval

theorem disjoint_stepSuspended {event : Event} (hdisjoint : s.db.Disjoint)
    (h : s.stepSuspended addMonths event = some s') : s'.db.Disjoint := by
  cases event with
  | view action => exact disjoint_step hdisjoint h
  | suspend pk days =>
      obtain ⟨approval, -, rfl⟩ := Option.map_eq_some_iff.mp h
      exact hdisjoint

end Limits

/-! ## `CommonProlongation.clean` -/

section Rules

variable {db : Db} {saved : Saved} {p : CommonProlongation}

/-- A selection of prolongations that is part of another one has fewer days. -/
theorem sum_filter_le {entries : List (Sigma fun _ : Nat => Prolongation)} {f g : (Sigma fun _ : Nat => Prolongation) → Bool}
    (hordered : ∀ e ∈ entries, e.2.startAt ≤ e.2.endAt) (hsub : ∀ e ∈ entries, f e = true → g e = true) :
    ((entries.filter f).map fun e => e.2.duration).sum ≤ ((entries.filter g).map fun e => e.2.duration).sum := by
  have hfilter : entries.filter f = (entries.filter g).filter f := by
    rw [List.filter_filter]
    refine List.filter_congr fun e he => ?_
    cases hf : f e with
    | false => rfl
    | true => rw [hsub e he hf]; rfl
  rw [hfilter]
  refine (List.filter_sublist.map _).sum_le_sum fun days hdays => ?_
  obtain ⟨e, he, rfl⟩ := List.mem_map.mp hdays
  have hle := hordered e (List.mem_of_mem_filter he)
  simp only [Period.duration]
  omega

theorem othersDuration_nonneg (hordered : ∀ e ∈ db.prolongations.entries, e.2.startAt ≤ e.2.endAt) (saved : Saved)
    (approval : Nat) :
    0 ≤ db.othersDuration saved approval := by
  have hle := sum_filter_le (f := fun _ => false) (g := fun e => e.2.approvalId = approval && !saved.isOwn e.1 e.2)
    hordered fun _ _ h => nomatch h
  simpa [Db.othersDuration] using hle

/-- Without the accident, `clean` has counted all the other prolongations. -/
theorem othersDuration_le (hordered : ∀ e ∈ db.prolongations.entries, e.2.startAt ≤ e.2.endAt) {approval : Nat}
    (hfree : ¬ db.Collides saved approval) :
    db.othersDuration saved approval ≤ db.cumulativeDurationFor approval saved.pk := by
  refine sum_filter_le hordered fun e he hother => ?_
  simp only [Bool.and_eq_true, decide_eq_true_eq, Bool.not_eq_true'] at hother
  obtain ⟨happroval, hown⟩ := hother
  rw [Bool.and_eq_true, decide_eq_true_eq, decide_eq_true_eq]
  refine ⟨happroval, fun hkey => ?_⟩
  cases saved with
  | prolongation pk => simp [Saved.isOwn, ← show some e.1 = pk from hkey] at hown
  | request pk =>
      cases pk with
      | none => cases hkey
      | some pk =>
          obtain rfl : e.1 = pk := Option.some.inj hkey
          refine hfree ⟨e.1, rfl, e.2, AList.mem_lookup_iff.mpr he, happroval, fun hrequest => ?_⟩
          simp [Saved.isOwn, hrequest] at hown

/-- What `clean` accepts respects the rules exactly when no request is longer than a year for the reasons with a larger
cumulative limit, and an accidental equality of primary keys leaves enough days. -/
theorem respectsRules_iff {isMember : Nat → Nat → Bool} {siae : Option Company}
    (hordered : ∀ e ∈ db.prolongations.entries, e.2.startAt ≤ e.2.endAt)
    (h : db.cleanCommon isMember saved siae p = true) :
    db.RespectsRules saved p ↔ p.MeetsMaxDuration ∧ db.CollisionFits saved p := by
  simp only [Db.cleanCommon, Bool.and_eq_true, decide_eq_true_eq] at h
  have hmax : p.endAt ≤ db.getMaxEndAt p.approvalId p.startAt p.reason saved.pk := h.1.1.1.1.2
  have hothers := othersDuration_nonneg hordered saved p.approvalId
  constructor
  · rintro ⟨hduration, hcumulative⟩
    refine ⟨fun hreason => ?_, fun _ => hcumulative⟩
    simp only [List.mem_cons, List.not_mem_nil, or_false] at hreason
    rcases hreason with hreason | hreason | hreason <;> simpa [hreason, Reason.maxDuration] using hduration
  · rintro ⟨hduration, hfits⟩
    have hcumulative : ∀ limit ∈ p.reason.maxCumulativeDuration,
        db.othersDuration saved p.approvalId + p.duration ≤ limit := by
      intro limit hlimit
      by_cases hcollides : db.Collides saved p.approvalId
      · exact hfits hcollides limit hlimit
      · have hle := othersDuration_le hordered hcollides
        simp only [Db.getMaxEndAt, Option.mem_def.mp hlimit] at hmax
        simp only [Period.duration]
        omega
    refine ⟨?_, hcumulative⟩
    simp only [Db.getMaxEndAt] at hmax
    cases hreason : p.reason with
    | seniorCdi | completeTraining =>
        simp only [hreason, Reason.maxCumulativeDuration, Reason.maxDuration] at hmax
        simp only [Reason.maxDuration, Period.duration]
        omega
    | rqth | senior | particularDifficulties => exact hduration (by simp [hreason])
    | healthContext =>
        have hle := hcumulative 365 (by simp [hreason, Reason.maxCumulativeDuration])
        simp only [Reason.maxDuration]
        omega

end Rules

end Itou.Prolongations
