import Itou.Insertion.Lemmas.OpeningHours
import Mathlib.Data.List.Sort

/-!
# Rules in another order

What the loop fills from rules does not depend on their order, up to the order of the ranges of a day, which are sorted
before they are shown, and to the comments.
-/

namespace Itou.Insertion.OpeningHours

open Itou.Lib

variable {cls : CharClasses}

/-- Both raise, or both give related values. -/
def Related {α : Type} (R : α → α → Prop) : Except Error α → Except Error α → Prop
  | .ok a, .ok b => R a b
  | .error _, .error _ => True
  | _, _ => False

theorem Related.bind {α β : Type} {R : α → α → Prop} {S : β → β → Prop} {x y : Except Error α} {f g : α → Except Error β}
    (h : Related R x y) (hfg : ∀ a b, R a b → Related S (f a) (g b)) : Related S (x >>= f) (y >>= g) := by
  cases x with
  | error e =>
      cases y with
      | error e' => exact trivial
      | ok b => exact h.elim
  | ok a =>
      cases y with
      | error e' => exact h.elim
      | ok b => exact hfg a b h

/-- The same opening times, in some order. -/
structure SameDay (a b : DaySchedule) : Prop where
  times : a.times.Perm b.times
  openAllDay : a.openAllDay = b.openAllDay

structure SameParsed (a b : Parsed) : Prop where
  schedule : ∀ day, Option.Rel SameDay (a.schedule day) (b.schedule day)
  hasPhOff : a.hasPhOff = b.hasPhOff
  comments : a.comments.Perm b.comments

theorem SameParsed.refl (parsed : Parsed) : SameParsed parsed parsed where
  schedule day := by
    cases parsed.schedule day with
    | none => exact .none
    | some schedule => exact .some ⟨.refl _, rfl⟩
  hasPhOff := rfl
  comments := .refl _

theorem SameDay.rel_trans {a b c : Option DaySchedule} (hab : Option.Rel SameDay a b) (hbc : Option.Rel SameDay b c) :
    Option.Rel SameDay a c := by
  cases hab with
  | none => exact hbc
  | some hab =>
      cases hbc with
      | some hbc => exact .some ⟨hab.times.trans hbc.times, hab.openAllDay.trans hbc.openAllDay⟩

theorem SameParsed.trans {a b c : Parsed} (hab : SameParsed a b) (hbc : SameParsed b c) : SameParsed a c where
  schedule day := SameDay.rel_trans (hab.schedule day) (hbc.schedule day)
  hasPhOff := hab.hasPhOff.trans hbc.hasPhOff
  comments := hab.comments.trans hbc.comments

/-! ## The effects of the rules -/

theorem foldl_merge_perm {es es' : List Effect} (h : es.Perm es') {a b : Option DaySchedule}
    (hab : Option.Rel SameDay a b) : Option.Rel SameDay (es.foldl Effect.merge a) (es'.foldl Effect.merge b) := by
  have htimes : (es.flatMap Effect.times).Perm (es'.flatMap Effect.times) := h.flatMap_right _
  have hopen : es.any Effect.openAllDay = es'.any Effect.openAllDay := h.any_eq
  cases hab with
  | none =>
      rw [foldl_merge_none, foldl_merge_none]
      cases es with
      | nil =>
          rw [List.nil_perm.mp h]
          exact .none
      | cons e es =>
          have hne : es' ≠ [] := by
            rintro rfl
            exact List.cons_ne_nil e es h.eq_nil
          obtain ⟨e', es', rfl⟩ := List.exists_cons_of_ne_nil hne
          exact .some ⟨htimes, hopen⟩
  | some hab =>
      rw [foldl_merge_some, foldl_merge_some]
      exact .some ⟨hab.times.append htimes, by rw [hab.openAllDay, hopen]⟩

theorem SameParsed.apply {a b : Parsed} (h : SameParsed a b) (e : Effect) : SameParsed (e.apply a) (e.apply b) where
  schedule day := by
    rw [Effect.apply, Effect.apply]
    simp only [Effect.schedule_apply]
    exact foldl_merge_perm (.refl _) (h.schedule day)
  hasPhOff := congrArg (· || e.closesHolidays) h.hasPhOff
  comments := h.comments.append_right _

theorem SameParsed.swap {a b : Parsed} (h : SameParsed a b) (e e' : Effect) :
    SameParsed (e'.apply (e.apply a)) (e.apply (e'.apply b)) where
  schedule day := by
    simp only [Effect.apply, Effect.schedule_apply, ← List.foldl_append]
    exact foldl_merge_perm List.perm_append_comm (h.schedule day)
  hasPhOff := by
    simp only [Effect.apply, h.hasPhOff, Bool.or_assoc, Bool.or_comm e.closesHolidays]
  comments := by
    simp only [Effect.apply, List.append_assoc]
    exact h.comments.append List.perm_append_comm

/-- A turn of the loop raises, or has an effect, whatever the turns before it. -/
theorem exists_effect (rule : List Char) :
    (∃ e, ∀ parsed, parseRule cls parsed rule = .error e) ∨
      ∃ e : Effect, ∀ parsed, parseRule cls parsed rule = .ok (e.apply parsed) := by
  have hnone : ∃ e : Effect, ∀ parsed : Parsed, Except.ok (ε := Error) parsed = .ok (e.apply parsed) :=
    ⟨⟨[], [], none, false, false, []⟩, fun parsed => by
      simp only [Effect.apply, List.foldl_nil, Bool.or_false, List.append_nil]⟩
  simp only [parseRule]
  split
  · exact Or.inr hnone
  split
  · refine Or.inr ⟨⟨[], [], none, false, true, []⟩, fun parsed => ?_⟩
    simp only [Effect.apply, List.foldl_nil, Bool.or_true, List.append_nil]
  split
  · exact Or.inr hnone
  rename_i selector parts _
  split
  · simp only [parseDays]
    split
    · exact Or.inr hnone
    split
    · exact Or.inr hnone
    cases expandDaySelector selector with
    | error e => exact Or.inl ⟨e, fun _ => rfl⟩
    | ok days =>
        refine Or.inr ⟨⟨days, (parts.flatMap (·.splitOn ',')).filter (isTimeRange cls), quotedText (strip rule),
          decide ((parts.flatMap (·.splitOn ',')).filter (isTimeRange cls) = [] ∧ (selector :: parts).contains "open".toList),
          false, []⟩, fun parsed => ?_⟩
        simp only [Effect.apply, Bool.or_false, List.append_nil]
        rfl
  · simp only [parseOther]
    split
    · cases translateMonthOff cls (join [' '] (selector :: parts).dropLast) with
      | error e => exact Or.inl ⟨e, fun _ => rfl⟩
      | ok translated =>
          refine Or.inr ⟨⟨[], [], none, false, false, translated.toList⟩, fun parsed => ?_⟩
          simp only [Effect.apply, List.foldl_nil, Bool.or_false]
          rfl
    · exact Or.inr hnone

theorem parseRule_same (rule : List Char) {a b : Parsed} (h : SameParsed a b) :
    Related SameParsed (parseRule cls a rule) (parseRule cls b rule) := by
  rcases @exists_effect cls rule with ⟨e, he⟩ | ⟨e, he⟩
  · rw [he, he]
    exact trivial
  · rw [he, he]
    exact h.apply e

/-- Two turns of the loop, in both orders. -/
theorem parseRule_swap (rule rule' : List Char) {a b : Parsed} (h : SameParsed a b) :
    Related SameParsed (parseRule cls a rule >>= (parseRule cls · rule'))
      (parseRule cls b rule' >>= (parseRule cls · rule)) := by
  rcases @exists_effect cls rule with ⟨e, he⟩ | ⟨e, he⟩
  · rcases @exists_effect cls rule' with ⟨e', he'⟩ | ⟨e', he'⟩
    · rw [he, he']
      exact trivial
    · simp only [he, he']
      exact trivial
  · rcases @exists_effect cls rule' with ⟨e', he'⟩ | ⟨e', he'⟩
    · simp only [he, he']
      exact trivial
    · simp only [he, he']
      exact h.swap e e'

theorem foldlM_same (rules : List (List Char)) {a b : Parsed} (h : SameParsed a b) :
    Related SameParsed (rules.foldlM (parseRule cls) a) (rules.foldlM (parseRule cls) b) := by
  induction rules generalizing a b with
  | nil => exact h
  | cons rule rules ih =>
      rw [List.foldlM_cons, List.foldlM_cons]
      exact (parseRule_same rule h).bind fun _ _ => ih

theorem Related.trans {a b c : Except Error Parsed} (hab : Related SameParsed a b) (hbc : Related SameParsed b c) :
    Related SameParsed a c := by
  cases a <;> cases b <;> cases c
  case ok.ok.ok => exact SameParsed.trans hab hbc
  case error.error.error => exact trivial
  all_goals first | exact hab.elim | exact hbc.elim

theorem foldlM_perm {rules rules' : List (List Char)} (hperm : rules.Perm rules') {a b : Parsed} (h : SameParsed a b) :
    Related SameParsed (rules.foldlM (parseRule cls) a) (rules'.foldlM (parseRule cls) b) := by
  induction hperm generalizing a b with
  | nil => exact h
  | cons rule _ ih =>
      rw [List.foldlM_cons, List.foldlM_cons]
      exact (parseRule_same rule h).bind fun _ _ => ih
  | swap rule' rule rules =>
      simp only [List.foldlM_cons, ← bind_assoc]
      exact (parseRule_swap rule rule' h).bind fun _ _ => foldlM_same rules
  | trans _ _ ih₁ ih₂ => exact (ih₁ h).trans (ih₂ (.refl _))

/-! ## The text of the rules -/

theorem splitOn_intercalate_flatMap {rules : List (List Char)} (hne : rules ≠ []) :
    ([';'].intercalate rules).splitOn ';' = rules.flatMap (·.splitOn ';') := by
  induction rules with
  | nil => exact absurd rfl hne
  | cons rule rules ih =>
      cases rules with
      | nil => rw [List.intercalate_singleton, List.flatMap_singleton]
      | cons rule' rules =>
          rw [List.intercalate_cons_cons, List.append_assoc, List.singleton_append, List.splitOn_append_cons_self,
            ih (List.cons_ne_nil _ _)]
          rfl

theorem intercalate_eq_nil_iff {rules : List (List Char)} :
    [';'].intercalate rules = [] ↔ rules = [] ∨ rules = [[]] := by
  cases rules with
  | nil => exact iff_of_true rfl (Or.inl rfl)
  | cons rule rules =>
      cases rules with
      | nil => simp
      | cons rule' rules => simp

theorem intercalate_eq_nil_of_perm {rules rules' : List (List Char)} (hperm : rules.Perm rules')
    (hnil : [';'].intercalate rules = []) : [';'].intercalate rules' = [] := by
  rw [intercalate_eq_nil_iff] at hnil ⊢
  rcases hnil with rfl | rfl
  · exact Or.inl (List.nil_perm.mp hperm)
  · exact Or.inr (List.singleton_perm.mp hperm).symm

theorem parseOsmHours_perm {rules rules' : List (List Char)} (hperm : rules.Perm rules') :
    Related SameParsed (parseOsmHours cls ([';'].intercalate rules)) (parseOsmHours cls ([';'].intercalate rules')) := by
  have hclosed : (closedWord cls).Separated ';' :=
    closedWord_separated (isWord_eq_false (by decide) (by decide)) (by decide)
  have hend : endOfRule.Separated ';' := endOfRule_separated (by decide) (by decide) (by decide)
  by_cases hne : rules = []
  · subst hne
    rw [List.nil_perm.mp hperm]
    exact foldlM_same _ (.refl _)
  · have hne' : rules' ≠ [] := by
      rintro rfl
      exact hne hperm.eq_nil
    rw [parseOsmHours, parseOsmHours, normalise, normalise, sub_intercalate hclosed, sub_intercalate hend,
      sub_intercalate hclosed, sub_intercalate hend,
      splitOn_intercalate_flatMap (by simpa using hne), splitOn_intercalate_flatMap (by simpa using hne')]
    exact foldlM_perm (((hperm.map _).map _).flatMap_right _) (.refl _)

/-! ## What is shown -/

theorem mergeSort_eq_of_perm {l l' : List (List Char)} (h : l.Perm l') :
    (l.mergeSort fun a b => decide (a ≤ b)) = l'.mergeSort fun a b => decide (a ≤ b) := by
  have hsorted (l : List (List Char)) : (l.mergeSort fun a b => decide (a ≤ b)).Pairwise (· ≤ ·) := by
    refine (List.pairwise_mergeSort (fun a b c hab hbc => ?_) (fun a b => ?_) l).imp of_decide_eq_true
    · exact decide_eq_true (le_trans (of_decide_eq_true hab) (of_decide_eq_true hbc))
    · rw [Bool.or_eq_true, decide_eq_true_eq, decide_eq_true_eq]
      exact le_total a b
  exact List.Perm.eq_of_pairwise' (hsorted l) (hsorted l')
    ((List.mergeSort_perm l _).trans (h.trans (List.mergeSort_perm l' _).symm))

theorem formatEntry_same (day : Fin 7) {a b : DaySchedule} (h : SameDay a b) :
    Related (fun e e' => e.label = e'.label ∧ e.hours = e'.hours) (formatEntry cls day a) (formatEntry cls day b) := by
  have hnil : a.times = [] ↔ b.times = [] := ⟨fun hnil => (hnil ▸ h.times).nil_eq.symm, fun hnil => (hnil ▸ h.times).eq_nil⟩
  rw [formatEntry, formatEntry, mergeSort_eq_of_perm h.times, h.openAllDay]
  simp only [hnil]
  split
  · exact ⟨rfl, rfl⟩
  · cases (b.times.mergeSort fun a b => decide (a ≤ b)).mapM (formatTimeRange cls) with
    | error e => exact trivial
    | ok hours => exact ⟨rfl, rfl⟩

theorem mapM_formatEntry_same (days : List (Fin 7)) {a b : Parsed} (h : SameParsed a b) :
    Related (fun es es' => es.map (fun e => (e.label, e.hours)) = es'.map fun e => (e.label, e.hours))
      ((days.filterMap fun day => (a.schedule day).map (day, ·)).mapM fun entry => formatEntry cls entry.1 entry.2)
      ((days.filterMap fun day => (b.schedule day).map (day, ·)).mapM fun entry => formatEntry cls entry.1 entry.2) := by
  induction days with
  | nil => exact rfl
  | cons day days ih =>
      rw [List.filterMap_cons, List.filterMap_cons]
      have hday := h.schedule day
      revert hday
      cases a.schedule day <;> cases b.schedule day
      case none.none => exact fun _ => ih
      case none.some => rintro ⟨⟩
      case some.none => rintro ⟨⟩
      case some.some sa sb =>
        rintro ⟨hday⟩
        simp only [Option.map_some, List.mapM_cons]
        exact (formatEntry_same day hday).bind fun e e' hentry =>
          ih.bind fun es es' hes => congrArg₂ List.cons (Prod.ext hentry.1 hentry.2) hes

theorem formatParsed_same {a b : Parsed} (h : SameParsed a b) :
    Related (Option.Rel SameHours) (formatParsed cls a) (formatParsed cls b) := by
  have hnil : a.scheduled = [] ↔ b.scheduled = [] := by
    simp only [Parsed.scheduled, List.filterMap_eq_nil_iff, Option.map_eq_none_iff]
    refine forall₂_congr fun day _ => ?_
    have hday := h.schedule day
    revert hday
    cases a.schedule day <;> cases b.schedule day
    case none.none => exact fun _ => Iff.rfl
    case none.some => rintro ⟨⟩
    case some.none => rintro ⟨⟩
    case some.some => exact fun _ => iff_of_false (Option.some_ne_none _) (Option.some_ne_none _)
  rw [formatParsed, formatParsed]
  simp only [hnil]
  split
  · exact .none
  · exact (mapM_formatEntry_same (List.finRange 7) h).bind fun es es' hes => .some ⟨hes, h.hasPhOff, h.comments⟩

end Itou.Insertion.OpeningHours
