import Itou.GeiqAssessments.Create
import Mathlib

/-!
# Creations do not overlap

What a form lets through, and what the lock of the campaign keeps between the read and the insertion.
-/

namespace Itou.GeiqAssessments.Create

open Itou.Lib

/-! ## Form -/

namespace CreateForm

variable {form : CreateForm} {ctx : Context} {post : Post}

theorem getAntennaField_injective : Function.Injective getAntennaField := fun _ _ h =>
  Nat.repr_injective ((String.append_right_inj _).mp h)

theorem getAntennaField_ne_mainField (antennaId : Nat) : getAntennaField antennaId ≠ form.mainField.name := by
  intro h
  have hhead := congrArg (fun name => name.toList.head?) h
  simp [getAntennaField, mainField] at hhead

/-- A box that is checked has a field, and this field is not disabled. -/
theorem exists_of_cleanedBox {name : String} (h : form.cleanedBox post name) :
    ∃ field ∈ form.mainField :: form.antennaFields, field.name = name ∧ field.disabled = false := by
  unfold cleanedBox at h
  split at h
  · cases h
  · rename_i field hfind
    split at h
    · cases h
    · rename_i hdisabled
      exact ⟨field, List.mem_of_find?_eq_some hfind, by simpa using List.find?_some hfind,
        Bool.not_eq_true _ ▸ hdisabled⟩

theorem not_existing_of_cleanedBox {antennaId : Nat} (h : form.cleanedBox post (getAntennaField antennaId)) :
    antennaId ∉ form.existingAntennaIds := by
  obtain ⟨field, hfield, hname, hdisabled⟩ := exists_of_cleanedBox h
  rcases List.mem_cons.mp hfield with rfl | hfield
  · exact absurd hname.symm (getAntennaField_ne_mainField antennaId)
  · obtain ⟨id, _, rfl⟩ := List.mem_map.mp hfield
    rw [← getAntennaField_injective hname]
    exact of_decide_eq_false hdisabled

theorem not_existing_of_cleanedMain (h : form.cleanedBox post "main_geiq") : form.existingMainGeiq = false := by
  obtain ⟨field, hfield, hname, hdisabled⟩ := exists_of_cleanedBox h
  rcases List.mem_cons.mp hfield with rfl | hfield
  · exact hdisabled
  · obtain ⟨id, _, rfl⟩ := List.mem_map.mp hfield
    have hne : getAntennaField id ≠ form.mainField.name := getAntennaField_ne_mainField id
    exact absurd hname hne

/-- A form that is valid has a box that is checked. -/
theorem exists_of_isValid (h : form.isValid ctx post) :
    form.cleanedBox post "main_geiq" ∨
      ∃ antenna ∈ form.antennaNames, form.cleanedBox post (getAntennaField antenna.1) := by
  have herrors : form.errors ctx post = [] := of_decide_eq_true (Bool.and_eq_true_iff.mp h).2
  simp only [errors, cleanErrors, List.append_eq_nil_iff, ite_eq_left_iff, Bool.not_eq_true, reduceCtorEq, imp_false,
    Bool.not_eq_false] at herrors
  obtain ⟨field, hfield, hbox⟩ := List.any_eq_true.mp herrors.2.2
  rcases List.mem_cons.mp hfield with rfl | hfield
  · exact Or.inl hbox
  · obtain ⟨id, hid, rfl⟩ := List.mem_map.mp hfield
    obtain ⟨antenna, hantenna, rfl⟩ := List.mem_map.mp (List.mem_of_mem_filter hid)
    exact Or.inr ⟨antenna, hantenna, hbox⟩

end CreateForm

section View

variable {ctx : Context} {post : Post} {campaign : Nat} {geiqInfo : LabelGeiq} {existing : List Assessment}
  {a : Assessment}

theorem mem_labelAntennas {form : CreateForm} {x : AssessmentAntenna} (h : x ∈ labelAntennas post geiqInfo form) :
    form.cleanedBox post (CreateForm.getAntennaField x.id) := by
  rw [labelAntennas, List.mem_insertionSort, List.mem_map] at h
  obtain ⟨antenna, hantenna, rfl⟩ := h
  exact (List.mem_filter.mp hantenna).2

theorem labelAntennas_ne_nil {form : CreateForm} {antenna : Nat × String} (hantenna : antenna ∈ form.antennaNames)
    (h : form.cleanedBox post (CreateForm.getAntennaField antenna.1)) : labelAntennas post geiqInfo form ≠ [] := by
  have hmem : antenna ∈ form.antennaNames.filter fun x => form.cleanedBox post (CreateForm.getAntennaField x.1) :=
    List.mem_filter.mpr ⟨hantenna, h⟩
  rw [labelAntennas]
  exact List.ne_nil_of_mem ((List.mem_insertionSort _).mpr (List.mem_map_of_mem hmem))

/-- What is created covers something, and nothing of what was read. -/
theorem create_eq_some (h : create ctx post campaign geiqInfo existing = some a) :
    a.campaign = campaign ∧ a.labelGeiqId = geiqInfo.id ∧ a.Covers ∧ ∀ b ∈ existing, b.Separate a := by
  unfold create at h
  dsimp only at h
  split at h
  · rename_i hguard
    cases h
    refine ⟨rfl, rfl, ?_, fun b hb _ _ => ⟨fun x hx y hy heq => ?_, fun ⟨hmain, hmain'⟩ => ?_⟩⟩
    · rcases CreateForm.exists_of_isValid hguard.1 with hmain | ⟨antenna, hantenna, hbox⟩
      · exact Or.inl hmain
      · exact Or.inr (labelAntennas_ne_nil hantenna hbox)
    · refine CreateForm.not_existing_of_cleanedBox (mem_labelAntennas hy) ?_
      exact List.mem_flatMap.mpr ⟨b, hb, List.mem_map.mpr ⟨x, hx, heq⟩⟩
    · have hnone := CreateForm.not_existing_of_cleanedMain hmain'
      exact absurd (List.any_eq_true.mpr ⟨b, hb, hmain⟩) (Bool.not_eq_true _ ▸ hnone)
  · cases h

end View

/-! ## Transactions -/

/-- The transaction has locked the row of its campaign. -/
def Transaction.Holds (t : Transaction) : Prop :=
  match t.phase with
  | .started => False
  | _ => True

/-- What the statements of a transaction still rely on, given the committed assessments. -/
def Transaction.UpToDate (t : Transaction) (assessments : List Assessment) : Prop :=
  match t.phase with
  | .read existing => existing = assessments.filter fun a => a.campaign = t.campaign ∧ a.labelGeiqId = t.geiqInfo.id
  | .created (some a) => a.campaign = t.campaign ∧ a.Covers ∧ ∀ b ∈ assessments, b.Separate a
  | _ => True

namespace State

/-- The invariant: a transaction that has read relies on the lock of its campaign. -/
structure Inv (s : State) : Prop where
  separate : s.assessments.Pairwise Assessment.Separate
  covers : ∀ a ∈ s.assessments, a.Covers
  locked : ∀ pid t, s.transactions pid = some t → t.Holds → s.lock t.campaign = some pid
  upToDate : ∀ pid t, s.transactions pid = some t → t.UpToDate s.assessments

variable {ctx : Context} {s s' : State} {pid : Nat} {t : Transaction}

theorem start_inv : start.Inv where
  separate := .nil
  covers := List.forall_mem_nil _
  locked := by
    rintro pid t h
    cases h
  upToDate := by
    rintro pid t h
    cases h

/-- A transaction in its new phase, when it keeps its lock. -/
theorem Inv.setPhase (h : s.Inv) (ht : s.transactions pid = some t) (hholds : t.Holds) {phase : Phase}
    (hdate : Transaction.UpToDate { t with phase } s.assessments) : (s.setPhase pid t phase).Inv where
  separate := h.separate
  covers := h.covers
  locked pid' t' ht' hholds' := by
    by_cases heq : pid' = pid
    · subst heq
      simp only [State.setPhase, Function.update_self, Option.some.injEq] at ht'
      subst ht'
      exact h.locked pid' t ht hholds
    · simp only [State.setPhase, Function.update_of_ne heq] at ht'
      exact h.locked pid' t' ht' hholds'
  upToDate pid' t' ht' := by
    by_cases heq : pid' = pid
    · subst heq
      simp only [State.setPhase, Function.update_self, Option.some.injEq] at ht'
      subst ht'
      exact hdate
    · simp only [State.setPhase, Function.update_of_ne heq] at ht'
      exact h.upToDate pid' t' ht'

/-- The end of a transaction, when the others stay up to date. -/
theorem Inv.close (h : s.Inv) {assessments : List Assessment} (hseparate : assessments.Pairwise Assessment.Separate)
    (hcovers : ∀ a ∈ assessments, a.Covers)
    (hothers : ∀ pid' t', pid' ≠ pid → s.transactions pid' = some t' → t'.UpToDate assessments) :
    (s.close pid t assessments).Inv where
  separate := hseparate
  covers := hcovers
  locked pid' t' ht' hholds' := by
    by_cases heq : pid' = pid
    · subst heq
      simp only [State.close, Function.update_self, reduceCtorEq] at ht'
    · simp only [State.close, Function.update_of_ne heq] at ht' ⊢
      have hlock := h.locked pid' t' ht' hholds'
      split
      · rename_i hown
        have hne : t'.campaign ≠ t.campaign := fun hcampaign =>
          heq (Option.some.inj (hlock.symm.trans (hcampaign ▸ hown)))
        rw [Function.update_of_ne hne]
        exact hlock
      · exact hlock
  upToDate pid' t' ht' := by
    by_cases heq : pid' = pid
    · subst heq
      simp only [State.close, Function.update_self, reduceCtorEq] at ht'
    · simp only [State.close, Function.update_of_ne heq] at ht'
      exact hothers pid' t' heq ht'

/-- An assessment of another campaign changes nothing for a transaction. -/
theorem UpToDate.append {assessments : List Assessment} {a : Assessment} (h : t.UpToDate assessments)
    (hcampaign : t.Holds → a.campaign ≠ t.campaign) : t.UpToDate (assessments ++ [a]) := by
  unfold Transaction.UpToDate at h ⊢
  unfold Transaction.Holds at hcampaign
  split at h
  · rename_i existing hphase
    simp only [hphase, forall_const] at hcampaign
    rw [h, List.filter_append]
    simp [hcampaign]
  · rename_i x hphase
    simp only [hphase, forall_const] at hcampaign
    refine ⟨h.1, h.2.1, fun b hb => ?_⟩
    rcases List.mem_append.mp hb with hb | hb
    · exact h.2.2 b hb
    · rw [List.mem_singleton.mp hb]
      exact fun hsame => absurd (hsame.trans h.1) hcampaign
  · trivial

/-- What one statement does. -/
theorem Inv.step (h : s.Inv) {action : Action} (hstep : s.step ctx action = some s') : s'.Inv := by
  cases action with
  | «begin» pid post =>
      simp only [State.step, startTransaction] at hstep
      split at hstep
      · cases hstep
      · rename_i hnone
        split at hstep
        · split at hstep
          · cases hstep
            exact h
          · split at hstep
            · cases hstep
              exact h
            · cases hstep
              refine ⟨h.separate, h.covers, fun pid' t' ht' hholds' => ?_, fun pid' t' ht' => ?_⟩
              · by_cases heq : pid' = pid
                · subst heq
                  simp only [Function.update_self, Option.some.injEq] at ht'
                  subst ht'
                  exact absurd hholds' id
                · simp only [Function.update_of_ne heq] at ht'
                  exact h.locked pid' t' ht' hholds'
              · by_cases heq : pid' = pid
                · subst heq
                  simp only [Function.update_self, Option.some.injEq] at ht'
                  subst ht'
                  trivial
                · simp only [Function.update_of_ne heq] at ht'
                  exact h.upToDate pid' t' ht'
        · cases hstep
          exact h
  | selectForUpdate pid =>
      obtain ⟨t, ht, hstep⟩ := Option.bind_eq_some_iff.mp hstep
      split at hstep
      · split at hstep
        · rename_i hphase hfree
          cases hstep
          refine ⟨h.separate, h.covers, fun pid' t' ht' hholds' => ?_, fun pid' t' ht' => ?_⟩
          · by_cases heq : pid' = pid
            · subst heq
              simp only [State.setPhase, Function.update_self, Option.some.injEq] at ht'
              subst ht'
              exact Function.update_self ..
            · simp only [State.setPhase, Function.update_of_ne heq] at ht'
              have hlock := h.locked pid' t' ht' hholds'
              have hne : t'.campaign ≠ t.campaign := by
                intro hcampaign
                rw [hcampaign, hfree] at hlock
                cases hlock
              exact (Function.update_of_ne hne _ _).trans hlock
          · by_cases heq : pid' = pid
            · subst heq
              simp only [State.setPhase, Function.update_self, Option.some.injEq] at ht'
              subst ht'
              trivial
            · simp only [State.setPhase, Function.update_of_ne heq] at ht'
              exact h.upToDate pid' t' ht'
        · cases hstep
      · cases hstep
  | selectAssessments pid =>
      obtain ⟨t, ht, hstep⟩ := Option.bind_eq_some_iff.mp hstep
      split at hstep
      · rename_i hphase
        cases hstep
        exact h.setPhase ht (by rw [Transaction.Holds, hphase]; trivial) rfl
      · cases hstep
  | create pid =>
      obtain ⟨t, ht, hstep⟩ := Option.bind_eq_some_iff.mp hstep
      split at hstep
      · rename_i existing hphase
        cases hstep
        have hdate := h.upToDate pid t ht
        rw [Transaction.UpToDate, hphase] at hdate
        refine h.setPhase ht (by rw [Transaction.Holds, hphase]; trivial) ?_
        cases hcreate : create ctx t.post t.campaign t.geiqInfo existing with
        | none => trivial
        | some a =>
            obtain ⟨hcampaign, hgeiq, hcovers, hseparate⟩ := create_eq_some hcreate
            refine ⟨hcampaign, hcovers, fun b hb hc hg => ?_⟩
            refine hseparate b ?_ hc hg
            rw [hdate]
            exact List.mem_filter.mpr ⟨hb, decide_eq_true ⟨hc.trans hcampaign, hg.trans hgeiq⟩⟩
      · cases hstep
  | commit pid =>
      obtain ⟨t, ht, hstep⟩ := Option.bind_eq_some_iff.mp hstep
      split at hstep
      · rename_i assessment hphase
        cases hstep
        have hdate := h.upToDate pid t ht
        have hlock := h.locked pid t ht (by rw [Transaction.Holds, hphase]; trivial)
        rw [Transaction.UpToDate, hphase] at hdate
        cases assessment with
        | none =>
            rw [Option.toList_none, List.append_nil]
            exact h.close h.separate h.covers fun pid' t' _ ht' => h.upToDate pid' t' ht'
        | some a =>
            obtain ⟨hcampaign, hcovers, hseparate⟩ := hdate
            refine h.close ?_ ?_ fun pid' t' hne ht' => ?_
            · refine List.pairwise_append.mpr ⟨h.separate, List.pairwise_singleton _ _, fun b hb x hx => ?_⟩
              rw [List.mem_singleton.mp hx]
              exact hseparate b hb
            · intro b hb
              rcases List.mem_append.mp hb with hb | hb
              · exact h.covers b hb
              · rw [List.mem_singleton.mp hb]
                exact hcovers
            · refine UpToDate.append (h.upToDate pid' t' ht') fun hholds hsame => hne ?_
              have hlock' := h.locked pid' t' ht' hholds
              rw [← hsame, hcampaign] at hlock'
              exact Option.some.inj (hlock'.symm.trans hlock)
      · cases hstep
  | rollback pid =>
      obtain ⟨t, ht, hstep⟩ := Option.bind_eq_some_iff.mp hstep
      cases hstep
      exact h.close h.separate h.covers fun pid' t' _ ht' => h.upToDate pid' t' ht'

end State

end Itou.GeiqAssessments.Create
