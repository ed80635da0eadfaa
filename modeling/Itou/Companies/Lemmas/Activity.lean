import Itou.Companies.Activity

/-!
# When the properties and the query sets agree

The properties and the query sets agree on the companies that are active, and on the others kind by kind.
-/

namespace Itou.Companies

namespace Operator

variable {now : Int} {c : Operator} {b : Bool} {k : CompanyKind}

theorem hasActiveConvention_iff :
    c.HasActiveConvention ↔ (c.convention.any fun convention => convention.isActive) = true := by
  cases h : c.convention <;> simp [HasActiveConvention, h]

/-- A company that is not active may operate during the grace period, when the code can tell its end. -/
theorem mayOperate_eq_ok (h : c.isActive = false) :
    c.mayOperate now = .ok b ↔ c.HasGracePeriod ∧ b = c.hasConventionInGracePeriod now := by
  have hexpired : (now + days (-1) < now) := by
    unfold days
    omega
  cases hconvention : c.convention with
  | none =>
      by_cases hsource : c.source = .userCreated
      · simp [mayOperate, gracePeriodHasExpired, gracePeriodEndDate, HasGracePeriod, hasConventionInGracePeriod, h,
          hconvention, hsource, hexpired, Except.map, eq_comm]
      · simp [mayOperate, gracePeriodHasExpired, gracePeriodEndDate, HasGracePeriod, h, hconvention, hsource, Except.map]
  | some convention =>
      cases hdeactivated : convention.deactivatedAt with
      | none =>
          simp [mayOperate, gracePeriodHasExpired, gracePeriodEndDate, HasGracePeriod, h, hconvention, hdeactivated,
            Except.map]
      | some deactivatedAt =>
          have hlast : (!decide (deactivatedAt + days SiaeConvention.deactivationGracePeriodInDays < now)) =
              decide (now - days SiaeConvention.deactivationGracePeriodInDays ≤ deactivatedAt) := by
            rw [← decide_not, decide_eq_decide]
            omega
          have hoperate : c.mayOperate now =
              .ok (decide (now - days SiaeConvention.deactivationGracePeriodInDays ≤ deactivatedAt)) := by
            rw [← hlast]
            simp only [mayOperate, gracePeriodHasExpired, gracePeriodEndDate, h, hconvention, hdeactivated,
              Option.isNone_some, Bool.and_false, Bool.false_eq_true, if_false, Except.map]
          rw [hoperate]
          simp [HasGracePeriod, hasConventionInGracePeriod, hconvention, hdeactivated, eq_comm]

theorem gracePeriodIsOver_iff :
    c.GracePeriodIsOver now ↔ c.HasGracePeriod ∧ c.hasConventionInGracePeriod now = false := by
  cases hconvention : c.convention with
  | none => simp [GracePeriodIsOver, HasGracePeriod, hasConventionInGracePeriod, hconvention]
  | some convention =>
      cases hdeactivated : convention.deactivatedAt with
      | none => simp [GracePeriodIsOver, HasGracePeriod, hconvention, hdeactivated]
      | some deactivatedAt =>
          simp only [GracePeriodIsOver, HasGracePeriod, hasConventionInGracePeriod, hconvention, hdeactivated,
            reduceCtorEq, false_and, Option.mem_def, Option.some.injEq, exists_eq_left', ne_eq, not_false_eq_true,
            Option.any_some, decide_eq_false_iff_not, false_or, true_and]
          omega

theorem agrees_of_active (h : c.isActive = true) : c.Agrees now ↔ c.active = true := by
  rw [Agrees, mayOperate, if_pos h, h, Except.ok.injEq, activeOrInGracePeriod, active]
  cases c.inObjects <;> cases c.activeLookup <;> simp

theorem agrees_of_hidden (h : c.isActive = false) (hhidden : c.inObjects = false) :
    c.Agrees now ↔ c.GracePeriodIsOver now := by
  rw [Agrees, mayOperate_eq_ok h, gracePeriodIsOver_iff, activeOrInGracePeriod, active, hhidden, Bool.false_and,
    Bool.false_and, eq_comm (a := false)]
  exact and_iff_left h

theorem agrees_of_inactive (h : c.isActive = false) (hobjects : c.inObjects = true) (hlookup : c.activeLookup = false) :
    c.Agrees now ↔ c.HasGracePeriod := by
  rw [Agrees, mayOperate_eq_ok h, activeOrInGracePeriod, active, hobjects, hlookup]
  simp [h]

theorem agrees_siae (hkind : c.kind = .choice k) (hk : k ∈ CompanyKind.siaeKinds) : c.Agrees now ↔
    if c.siret = poleEmploiSiret then c.source ≠ .staffCreated ∧ ¬ c.HasActiveConvention ∧ c.GracePeriodIsOver now
    else c.source = .staffCreated ∨ c.HasActiveConvention ∨ c.HasGracePeriod := by
  have hadapted : c.kind.mem [.ea, .eatt] = false := by
    rw [hkind]
    cases k with
    | ea => exact absurd hk (by decide)
    | eatt => exact absurd hk (by decide)
    | _ => rfl
  have hshould : c.shouldHaveConvention = true := by
    rw [shouldHaveConvention, hkind]
    exact decide_eq_true hk
  have hactive : c.isActive = c.activeLookup := by
    have hgeiq : c.kind ≠ .choice .geiq := fun h => absurd hk (StoredKind.choice.inj (hkind.symm.trans h) ▸ by decide)
    have hopcs : c.kind ≠ .choice .opcs := fun h => absurd hk (StoredKind.choice.inj (hkind.symm.trans h) ▸ by decide)
    have hreserved : c.kind ≠ .reserved := fun h => StoredKind.noConfusion (hkind.symm.trans h)
    by_cases hsource : c.source = .staffCreated <;>
      simp [isActive, activeLookup, hadapted, hshould, hsource, hgeiq, hopcs, hreserved]
  have hobjects : c.inObjects = decide (c.siret ≠ poleEmploiSiret) := by
    simp [inObjects, hadapted]
  have hiff : c.isActive = true ↔ c.source = .staffCreated ∨ c.HasActiveConvention := by
    rw [hasActiveConvention_iff]
    by_cases hsource : c.source = .staffCreated <;> simp [isActive, hadapted, hshould, hsource]
  cases h : c.isActive with
  | true =>
      rw [agrees_of_active h, active, ← hactive, h, hobjects]
      rcases hiff.mp h with hsource | hconvention
      · simp [hsource]
      · simp [hconvention]
  | false =>
      have hnot : ¬ (c.source = .staffCreated ∨ c.HasActiveConvention) := fun hor => by
        rw [hiff.mpr hor] at h
        cases h
      obtain ⟨hsource, hconvention⟩ := not_or.mp hnot
      by_cases hsiret : c.siret = poleEmploiSiret
      · rw [agrees_of_hidden h (by simp [hobjects, hsiret]), if_pos hsiret]
        exact ⟨fun hover => ⟨hsource, hconvention, hover⟩, fun hover => hover.2.2⟩
      · rw [agrees_of_inactive h (by simp [hobjects, hsiret]) (hactive ▸ h), if_neg hsiret]
        simp [hsource, hconvention]

end Operator

end Itou.Companies
