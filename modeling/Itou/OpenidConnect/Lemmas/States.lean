import Itou.OpenidConnect.States
import Mathlib.Tactic.ByContra

/-!
# One callback at a time

Once a callback has got `True`, it holds the row, or the row is used and no callback is pending.
-/

namespace Itou.OpenidConnect.OIDConnectState

open Itou.Lib

variable {s s' : State} {a : Action} {i : Nat} {p q : Phase} {createdAt : Int}

/-! ## The instant of the creation -/

/-- The copy that a callback has. -/
def Phase.copy : Phase → Option Row
  | .read copy => some copy
  | .saving copy => some copy
  | .saved copy _ => some copy
  | .ended => none

/-- The row and its copies were created at the same time. -/
structure State.Dated (createdAt : Int) (s : State) : Prop where
  row : ∀ r ∈ s.row, r.createdAt = createdAt
  copies : ∀ p ∈ s.callbacks.rows, ∀ r ∈ p.copy, r.createdAt = createdAt
  inTime : s.UsedInTime createdAt

theorem dated_insert (h : s.Dated createdAt) (hp : ∀ r ∈ p.copy, r.createdAt = createdAt) :
    ∀ q ∈ Table.rows (s.callbacks.insert i p), ∀ r ∈ q.copy, r.createdAt = createdAt := by
  intro q hq
  rcases Table.rows_insert_cases hq with rfl | hq
  · exact hp
  · exact h.copies q hq

theorem dated_of_lookup (h : s.Dated createdAt) (hp : s.callbacks.lookup i = some p) :
    ∀ r ∈ p.copy, r.createdAt = createdAt :=
  h.copies p (Table.mem_rows.mpr ⟨i, hp⟩)

theorem dated_step (h : s.Dated createdAt) (hstep : s.step a = some s') : s'.Dated createdAt := by
  cases a with
  | getFromState i =>
      simp only [State.step, State.getFromState, Option.ite_none_left_eq_some, Option.some.injEq] at hstep
      obtain ⟨_, rfl⟩ := hstep
      refine ⟨h.row, dated_insert h ?_, h.inTime⟩
      cases hrow : s.row with
      | none => exact nofun
      | some row =>
          intro r hr
          exact h.row r (hrow.trans hr)
  | checkUsed i =>
      simp only [State.step, State.checkUsed] at hstep
      split at hstep
      · rename_i copy hlookup
        cases hstep
        refine ⟨h.row, dated_insert h ?_, h.inTime⟩
        split
        · exact nofun
        · intro r hr
          obtain rfl := Option.some.inj hr
          exact dated_of_lookup h hlookup copy rfl
      · cases hstep
  | save i =>
      simp only [State.step, State.save] at hstep
      split at hstep
      · rename_i copy hlookup
        rw [Option.ite_none_left_eq_some] at hstep
        obtain ⟨_, hstep⟩ := hstep
        cases hstep
        have hcreated : copy.createdAt = createdAt := dated_of_lookup h hlookup copy rfl
        refine ⟨h.row, dated_insert h ?_, fun t ht => ?_⟩
        · intro r hr
          obtain rfl := Option.some.inj hr
          exact hcreated
        · dsimp only at ht
          split at ht
          · rename_i hvalid
            rcases List.mem_cons.mp ht with rfl | ht
            · rw [← hcreated]
              exact of_decide_eq_true hvalid
            · exact h.inTime t ht
          · exact h.inTime t ht
      · cases hstep
  | commit i =>
      simp only [State.step, State.commit] at hstep
      split at hstep
      · rename_i copy _ hlookup
        cases hstep
        refine ⟨?_, dated_insert h nofun, h.inTime⟩
        intro r hr
        obtain rfl := Option.some.inj hr
        exact dated_of_lookup h hlookup copy rfl
      · cases hstep
        exact ⟨h.row, dated_insert h nofun, h.inTime⟩
      · cases hstep
  | rollback i =>
      simp only [State.step, State.rollback, Option.ite_none_right_eq_some, Option.some.injEq] at hstep
      obtain ⟨_, rfl⟩ := hstep
      exact ⟨h.row, dated_insert h nofun, h.inTime⟩
  | cleanup atTime =>
      simp only [State.step, State.cleanup] at hstep
      split at hstep
      · rw [Option.ite_none_left_eq_some] at hstep
        obtain ⟨_, hstep⟩ := hstep
        cases hstep
        exact ⟨nofun, h.copies, h.inTime⟩
      · cases hstep
        exact h
  | wait now =>
      simp only [State.step, Option.ite_none_right_eq_some, Option.some.injEq] at hstep
      obtain ⟨_, rfl⟩ := hstep
      exact ⟨h.row, h.copies, h.inTime⟩

/-! ## One callback at a time -/

/-- The invariant. -/
structure State.Exclusive (s : State) : Prop where
  alone : ∀ i j p q, s.callbacks.lookup i = some p → s.callbacks.lookup j = some q → p.Pending → q.Pending → i = j
  used : ∀ i copy, s.callbacks.lookup i = some (.saving copy) ∨
    (∃ isValid, s.callbacks.lookup i = some (.saved copy isValid)) → copy.usedAt.isSome = true
  once : s.UsedOnce
  spent : s.obtained ≠ [] → (∃ i copy, s.callbacks.lookup i = some (.saved copy true)) ∨
    ((∀ r ∈ s.row, r.usedAt.isSome = true) ∧ ∀ i p, s.callbacks.lookup i = some p → ¬ p.Pending)

/-- While a callback is pending and has not saved, none has got `True`. -/
theorem State.Exclusive.obtained_eq_nil (h : s.Exclusive) (hp : s.callbacks.lookup i = some p) (hpending : p.Pending)
    (hnot : ∀ copy, p ≠ .saved copy true) : s.obtained = [] := by
  by_contra hne
  rcases h.spent hne with ⟨j, copy, hj⟩ | ⟨_, hnone⟩
  · obtain rfl := h.alone i j p _ hp hj hpending trivial
    exact hnot copy (Option.some.inj (hp.symm.trans hj))
  · exact hnone i p hp hpending

/-- The callback `i` goes to another phase, pending only if no other callback is. -/
theorem State.Exclusive.insert (h : s.Exclusive) (q : Phase)
    (hothers : q.Pending → ∀ j x, s.callbacks.lookup j = some x → x.Pending → j = i)
    (hused : ∀ copy, q = .saving copy ∨ (∃ isValid, q = .saved copy isValid) → copy.usedAt.isSome = true)
    (hcallbacks : s'.callbacks = s.callbacks.insert i q) (honce : s'.UsedOnce)
    (hspent : s'.obtained ≠ [] → (∃ i copy, s'.callbacks.lookup i = some (.saved copy true)) ∨
      ((∀ r ∈ s'.row, r.usedAt.isSome = true) ∧ ∀ i p, s'.callbacks.lookup i = some p → ¬ p.Pending)) :
    s'.Exclusive := by
  have hlookup : ∀ j x, s'.callbacks.lookup j = some x → j = i ∧ x = q ∨ j ≠ i ∧ s.callbacks.lookup j = some x := by
    intro j x hx
    rw [hcallbacks] at hx
    by_cases hj : j = i
    · subst hj
      rw [AList.lookup_insert] at hx
      exact Or.inl ⟨rfl, (Option.some.inj hx).symm⟩
    · rw [AList.lookup_insert_ne hj] at hx
      exact Or.inr ⟨hj, hx⟩
  refine ⟨fun j k x y hx hy hxp hyp => ?_, fun j copy hj => ?_, honce, hspent⟩
  · rcases hlookup j x hx with ⟨rfl, rfl⟩ | ⟨hji, hx⟩
    · rcases hlookup k y hy with ⟨rfl, rfl⟩ | ⟨_, hy⟩
      · rfl
      · exact (hothers hxp k y hy hyp).symm
    · rcases hlookup k y hy with ⟨rfl, rfl⟩ | ⟨_, hy⟩
      · exact hothers hyp j x hx hxp
      · exact h.alone j k x y hx hy hxp hyp
  · rcases hj with hj | ⟨isValid, hj⟩
    · rcases hlookup j _ hj with ⟨rfl, hq⟩ | ⟨_, hj⟩
      · exact hused copy (Or.inl hq.symm)
      · exact h.used j copy (Or.inl hj)
    · rcases hlookup j _ hj with ⟨rfl, hq⟩ | ⟨_, hj⟩
      · exact hused copy (Or.inr ⟨isValid, hq.symm⟩)
      · exact h.used j copy (Or.inr ⟨isValid, hj⟩)

/-- A callback that ends leaves what the others have obtained. -/
theorem State.Exclusive.insert_ended (h : s.Exclusive) (hcallbacks : s'.callbacks = s.callbacks.insert i .ended)
    (hobtained : s'.obtained = s.obtained) (hrow : s'.row = s.row ∨ ∃ copy, s'.row = some copy ∧ copy.usedAt.isSome = true)
    (hlast : ∀ copy, s.callbacks.lookup i = some (.saved copy true) → ∀ r ∈ s'.row, r.usedAt.isSome = true) :
    s'.Exclusive := by
  refine h.insert .ended (fun hpending => absurd hpending id) (by rintro copy (heq | ⟨_, heq⟩) <;> cases heq) hcallbacks
    (by rw [State.UsedOnce, hobtained]; exact h.once) fun hne => ?_
  rw [hobtained] at hne
  have hended : ∀ j x, s'.callbacks.lookup j = some x → x = .ended ∨ j ≠ i ∧ s.callbacks.lookup j = some x := by
    intro j x hx
    rw [hcallbacks] at hx
    by_cases hj : j = i
    · subst hj
      rw [AList.lookup_insert] at hx
      exact Or.inl (Option.some.inj hx).symm
    · rw [AList.lookup_insert_ne hj] at hx
      exact Or.inr ⟨hj, hx⟩
  rcases h.spent hne with ⟨j, copy, hj⟩ | ⟨hused, hnone⟩
  · by_cases hji : j = i
    · subst hji
      refine Or.inr ⟨hlast copy hj, fun k x hx hpending => ?_⟩
      rcases hended k x hx with rfl | ⟨hk, hx⟩
      · exact hpending
      · exact hk (h.alone k j x _ hx hj hpending trivial)
    · exact Or.inl ⟨j, copy, by rw [hcallbacks, AList.lookup_insert_ne hji]; exact hj⟩
  · refine Or.inr ⟨?_, fun k x hx hpending => ?_⟩
    · rcases hrow with heq | ⟨copy, heq, hcopy⟩
      · rw [heq]
        exact hused
      · rw [heq]
        intro r hr
        obtain rfl := Option.some.inj hr
        exact hcopy
    · rcases hended k x hx with rfl | ⟨_, hx⟩
      · exact hpending
      · exact hnone k x hx hpending

theorem exclusive_getFromState (h : s.Exclusive) (hG : s.OneByOne (.getFromState i))
    (hstep : s.getFromState i = some s') : s'.Exclusive := by
  rw [State.getFromState, Option.ite_none_left_eq_some] at hstep
  obtain ⟨hi, hstep⟩ := hstep
  cases hstep
  have hnew : s.callbacks.lookup i = none := AList.lookup_eq_none.mpr hi
  cases hrow : s.row with
  | none =>
      refine h.insert_ended rfl rfl (Or.inl hrow.symm) fun copy hlookup => ?_
      rw [hnew] at hlookup
      cases hlookup
  | some row =>
      have hpending : (Phase.read row).Pending → ∀ j x, s.callbacks.lookup j = some x → ¬ x.Pending :=
        fun hunused j x hx => hG ⟨row, hrow, hunused⟩ x (Table.mem_rows.mpr ⟨j, hx⟩)
      refine h.insert (.read row) (fun hunused j x hx hxp => absurd hxp (hpending hunused j x hx))
        (by rintro copy (heq | ⟨_, heq⟩) <;> cases heq) rfl h.once fun hne => ?_
      rcases h.spent hne with ⟨j, copy, hj⟩ | ⟨hused, hnone⟩
      · have hji : j ≠ i := by
          rintro rfl
          rw [hnew] at hj
          cases hj
        exact Or.inl ⟨j, copy, (AList.lookup_insert_ne hji).trans hj⟩
      · refine Or.inr ⟨fun r hr => hused r (hrow.trans hr), fun k x hx hxp => ?_⟩
        by_cases hk : k = i
        · subst hk
          rw [AList.lookup_insert] at hx
          obtain rfl := Option.some.inj hx
          have hsome := hused row hrow
          rw [show row.usedAt = none from hxp] at hsome
          cases hsome
        · rw [AList.lookup_insert_ne hk] at hx
          exact hnone k x hx hxp

theorem exclusive_checkUsed (h : s.Exclusive) (hstep : s.checkUsed i = some s') : s'.Exclusive := by
  unfold State.checkUsed at hstep
  split at hstep
  · rename_i copy hlookup
    cases hstep
    cases hused : copy.usedAt with
    | some t =>
        refine h.insert_ended (i := i) (by rw [Option.isSome_some, if_pos rfl]) rfl (Or.inl rfl) fun x hx => ?_
        rw [hlookup] at hx
        cases hx
    | none =>
        have hpending : (Phase.read copy).Pending := hused
        have hnil : s.obtained = [] := h.obtained_eq_nil hlookup hpending nofun
        refine h.insert (i := i) (.saving { copy with usedAt := some s.now })
          (fun _ j x hx hxp => h.alone j i x _ hx hlookup hxp hpending) ?_
          (by rw [Option.isSome_none, if_neg Bool.false_ne_true]) h.once fun hne => absurd hnil hne
        rintro x (heq | ⟨_, heq⟩) <;> cases heq
        rfl
  · cases hstep

theorem exclusive_save (h : s.Exclusive) (hstep : s.save i = some s') : s'.Exclusive := by
  unfold State.save at hstep
  split at hstep
  · rename_i copy hlookup
    rw [Option.ite_none_left_eq_some] at hstep
    obtain ⟨_, hstep⟩ := hstep
    cases hstep
    have hnil : s.obtained = [] := h.obtained_eq_nil hlookup trivial nofun
    refine h.insert (i := i) (.saved copy (s.now < copy.expiredAt))
      (fun _ j x hx hxp => h.alone j i x _ hx hlookup hxp trivial) ?_ rfl ?_ fun hne => ?_
    · rintro x (heq | ⟨_, heq⟩) <;> cases heq
      exact h.used i copy (Or.inl hlookup)
    · dsimp only [State.UsedOnce]
      rw [hnil]
      split
      · exact Nat.le_refl 1
      · exact Nat.zero_le 1
    · dsimp only at hne ⊢
      by_cases hvalid : decide (s.now < copy.expiredAt) = true
      · rw [hvalid]
        exact Or.inl ⟨i, copy, AList.lookup_insert _⟩
      · rw [if_neg hvalid] at hne
        exact absurd hnil hne
  · cases hstep

theorem exclusive_commit (h : s.Exclusive) (hstep : s.commit i = some s') : s'.Exclusive := by
  unfold State.commit at hstep
  split at hstep
  · rename_i copy isValid hlookup
    cases hstep
    have hused : copy.usedAt.isSome = true := h.used i copy (Or.inr ⟨isValid, hlookup⟩)
    refine h.insert_ended rfl rfl (Or.inr ⟨copy, rfl, hused⟩) fun _ _ r hr => ?_
    obtain rfl := Option.some.inj hr
    exact hused
  · rename_i p hnot hlookup
    cases hstep
    refine h.insert_ended rfl rfl (Or.inl rfl) fun copy hcopy => ?_
    exact absurd (Option.some.inj (hlookup.symm.trans hcopy)) (hnot copy true)
  · cases hstep

theorem exclusive_rollback (h : s.Exclusive) (hG : s.OneByOne (.rollback i)) (hstep : s.rollback i = some s') :
    s'.Exclusive := by
  rw [State.rollback, Option.ite_none_right_eq_some] at hstep
  obtain ⟨_, hstep⟩ := hstep
  cases hstep
  exact h.insert_ended rfl rfl (Or.inl rfl) fun copy hcopy => absurd rfl (hG _ hcopy)

theorem exclusive_cleanup {atTime : Int} (h : s.Exclusive) (hstep : s.cleanup atTime = some s') : s'.Exclusive := by
  unfold State.cleanup at hstep
  split at hstep
  · rw [Option.ite_none_left_eq_some] at hstep
    obtain ⟨_, hstep⟩ := hstep
    cases hstep
    exact ⟨h.alone, h.used, h.once, fun hne => (h.spent hne).imp_right fun hused => ⟨nofun, hused.2⟩⟩
  · cases hstep
    exact h

/-- The steps of one callback at a time keep the invariant. -/
theorem exclusive_step (h : s.Exclusive) (hG : s.OneByOne a) (hstep : s.step a = some s') : s'.Exclusive := by
  cases a with
  | getFromState i => exact exclusive_getFromState h hG hstep
  | checkUsed i => exact exclusive_checkUsed h hstep
  | save i => exact exclusive_save h hstep
  | commit i => exact exclusive_commit h hstep
  | rollback i => exact exclusive_rollback h hG hstep
  | cleanup atTime => exact exclusive_cleanup h hstep
  | wait now =>
      rw [State.step, Option.ite_none_right_eq_some] at hstep
      obtain ⟨_, hstep⟩ := hstep
      cases hstep
      exact ⟨h.alone, h.used, h.once, h.spent⟩

theorem exclusive_start (createdAt now : Int) : (State.start createdAt now).Exclusive where
  alone _ _ _ _ h := by cases h
  used _ _ h := by rcases h with h | ⟨_, h⟩ <;> cases h
  once := Nat.zero_le 1
  spent h := absurd rfl h

theorem dated_start (createdAt now : Int) : (State.start createdAt now).Dated createdAt where
  row r hr := by rw [← Option.some.inj hr]
  copies := nofun
  inTime := nofun

end Itou.OpenidConnect.OIDConnectState
