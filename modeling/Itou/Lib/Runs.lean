/-!
# Runs of a labelled partial step

A system is a function `step : σ → α → Option σ`. A label `a` that cannot be taken in a state gives
`none`. A run is a list of labels. The rules below say what a run keeps when each of its steps keeps it.
-/

namespace Itou.Lib

universe u v w

variable {σ : Type u} {α : Type v}

/-- Take the steps of a list in order. The run stops with `none` at a label that cannot be taken. -/
def run (step : σ → α → Option σ) : σ → List α → Option σ
  | s, [] => some s
  | s, a :: as => (step s a).bind (run step · as)

/-- `P` holds in each state that the run visits, the first and the last included. -/
def AllStates (step : σ → α → Option σ) (P : σ → Prop) : σ → List α → Prop
  | s, [] => P s
  | s, a :: as => P s ∧ match step s a with
    | none => True
    | some s' => AllStates step P s' as

/-- `G` holds of each step that the run takes, in the state before the step. -/
def AllSteps (step : σ → α → Option σ) (G : σ → α → Prop) : σ → List α → Prop
  | _, [] => True
  | s, a :: as => match step s a with
    | none => True
    | some s' => G s a ∧ AllSteps step G s' as

/-- Some step that the run takes meets `H`, in the state before the step. -/
def SomeStep (step : σ → α → Option σ) (H : σ → α → Prop) : σ → List α → Prop
  | _, [] => False
  | s, a :: as => match step s a with
    | none => False
    | some s' => H s a ∨ SomeStep step H s' as

/-- Each step that meets `G` is followed by a step that meets `H`. -/
def Followed (step : σ → α → Option σ) (G H : σ → α → Prop) : σ → List α → Prop
  | _, [] => True
  | s, a :: as => match step s a with
    | none => True
    | some s' => (G s a → SomeStep step H s' as) ∧ Followed step G H s' as

variable {step : σ → α → Option σ}

instance AllStates.decidable {P : σ → Prop} [DecidablePred P] :
    (s : σ) → (as : List α) → Decidable (AllStates step P s as)
  | s, [] => inferInstanceAs (Decidable (P s))
  | s, a :: as =>
      match h : step s a with
      | none => decidable_of_iff (P s) (by simp [AllStates, h])
      | some s' =>
          have : Decidable (AllStates step P s' as) := AllStates.decidable s' as
          decidable_of_iff (P s ∧ AllStates step P s' as) (by simp [AllStates, h])

instance AllSteps.decidable {G : σ → α → Prop} [∀ s a, Decidable (G s a)] :
    (s : σ) → (as : List α) → Decidable (AllSteps step G s as)
  | _, [] => .isTrue trivial
  | s, a :: as =>
      match h : step s a with
      | none => .isTrue (by simp [AllSteps, h])
      | some s' =>
          have : Decidable (AllSteps step G s' as) := AllSteps.decidable s' as
          decidable_of_iff (G s a ∧ AllSteps step G s' as) (by simp [AllSteps, h])

instance SomeStep.decidable {H : σ → α → Prop} [∀ s a, Decidable (H s a)] :
    (s : σ) → (as : List α) → Decidable (SomeStep step H s as)
  | _, [] => .isFalse id
  | s, a :: as =>
      match h : step s a with
      | none => .isFalse (by simp [SomeStep, h])
      | some s' =>
          have : Decidable (SomeStep step H s' as) := SomeStep.decidable s' as
          decidable_of_iff (H s a ∨ SomeStep step H s' as) (by simp [SomeStep, h])

instance Followed.decidable {G H : σ → α → Prop} [∀ s a, Decidable (G s a)] [∀ s a, Decidable (H s a)] :
    (s : σ) → (as : List α) → Decidable (Followed step G H s as)
  | _, [] => .isTrue trivial
  | s, a :: as =>
      match h : step s a with
      | none => .isTrue (by simp [Followed, h])
      | some s' =>
          have : Decidable (Followed step G H s' as) := Followed.decidable s' as
          decidable_of_iff ((G s a → SomeStep step H s' as) ∧ Followed step G H s' as) (by simp [Followed, h])

/-! ## Shape of a run -/

@[simp] theorem run_nil (s : σ) : run step s [] = some s := rfl

@[simp] theorem run_cons (s : σ) (a : α) (as : List α) :
    run step s (a :: as) = (step s a).bind (run step · as) := rfl

theorem run_append (s : σ) (as bs : List α) : run step s (as ++ bs) = (run step s as).bind (run step · bs) := by
  induction as generalizing s with
  | nil => rfl
  | cons a as ih =>
      rw [List.cons_append, run_cons, run_cons, Option.bind_assoc]
      exact congrArg (Option.bind (step s a)) (funext fun s' => ih s')

/-- The last step of a run. -/
theorem run_concat {s t t' : σ} {as : List α} {a : α} (h : run step s as = some t)
    (h' : run step s (as ++ [a]) = some t') : step t a = some t' := by
  rw [run_append, h, Option.bind_some, run_cons] at h'
  obtain ⟨u, hu, h'⟩ := Option.bind_eq_some_iff.mp h'
  cases h'
  exact hu

/-- What a run does to an image of the states, when each step does it. -/
theorem run_map {τ : Type w} {step' : τ → α → Option τ} {f : σ → τ} (h : ∀ s a, (step s a).map f = step' (f s) a)
    (s : σ) (as : List α) : (run step s as).map f = run step' (f s) as := by
  induction as generalizing s with
  | nil => rfl
  | cons a as ih =>
      rw [run, run, ← h]
      cases step s a with
      | none => rfl
      | some s' => exact ih s'

theorem AllStates.head {P : σ → Prop} {s : σ} {as : List α} (h : AllStates step P s as) : P s := by
  cases as with
  | nil => exact h
  | cons a as => exact h.1

theorem AllStates.mono {P Q : σ → Prop} (hPQ : ∀ s, P s → Q s) {s : σ} {as : List α}
    (h : AllStates step P s as) : AllStates step Q s as := by
  induction as generalizing s with
  | nil => exact hPQ s h
  | cons a as ih =>
      refine ⟨hPQ s h.1, ?_⟩
      have h2 := h.2
      cases hs : step s a with
      | none => trivial
      | some s' => simp only [hs] at h2 ⊢; exact ih h2

/-- The run may stop before. -/
theorem AllStates.of_append {P : σ → Prop} {s : σ} {as bs : List α} (h : AllStates step P s (as ++ bs)) :
    AllStates step P s as := by
  induction as generalizing s with
  | nil => exact h.head
  | cons a as ih =>
      refine ⟨h.1, ?_⟩
      have h2 := h.2
      cases hs : step s a with
      | none => trivial
      | some s' => simp only [hs] at h2 ⊢; exact ih h2

/-- The state in which the run ends is one that it visits. -/
theorem AllStates.last {P : σ → Prop} {s s' : σ} {as : List α} (h : AllStates step P s as)
    (hrun : run step s as = some s') : P s' := by
  induction as generalizing s with
  | nil =>
      cases hrun
      exact h
  | cons a as ih =>
      obtain ⟨t, ht, hrun⟩ := Option.bind_eq_some_iff.mp hrun
      have h2 := h.2
      simp only [ht] at h2
      exact ih h2 hrun

theorem allSteps_of_forall {G : σ → α → Prop} (h : ∀ s a, G s a) {s : σ} {as : List α} : AllSteps step G s as := by
  induction as generalizing s with
  | nil => trivial
  | cons a as ih =>
      simp only [AllSteps]
      cases step s a with
      | none => trivial
      | some s' => exact ⟨h s a, ih⟩

theorem allSteps_and {G H : σ → α → Prop} {s : σ} {as : List α} :
    AllSteps step (fun s a => G s a ∧ H s a) s as ↔ AllSteps step G s as ∧ AllSteps step H s as := by
  induction as generalizing s with
  | nil => exact ⟨fun _ => ⟨trivial, trivial⟩, fun _ => trivial⟩
  | cons a as ih =>
      simp only [AllSteps]
      cases step s a with
      | none => exact ⟨fun _ => ⟨trivial, trivial⟩, fun _ => trivial⟩
      | some s' =>
          constructor
          · rintro ⟨⟨hg, hh⟩, h⟩
            exact ⟨⟨hg, (ih.mp h).1⟩, hh, (ih.mp h).2⟩
          · rintro ⟨⟨hg, hgs⟩, hh, hhs⟩
            exact ⟨⟨hg, hh⟩, ih.mpr ⟨hgs, hhs⟩⟩

theorem AllSteps.of_append {G : σ → α → Prop} {s : σ} {as bs : List α} (h : AllSteps step G s (as ++ bs)) :
    AllSteps step G s as := by
  induction as generalizing s with
  | nil => trivial
  | cons a as ih =>
      simp only [List.cons_append, AllSteps] at h ⊢
      cases hs : step s a with
      | none => trivial
      | some s' =>
          simp only [hs] at h
          exact ⟨h.1, ih h.2⟩

/-- What holds of the steps of a run holds of those after its first part. -/
theorem AllSteps.after {G : σ → α → Prop} {s t : σ} {as bs : List α} (h : AllSteps step G s (as ++ bs))
    (hrun : run step s as = some t) : AllSteps step G t bs := by
  induction as generalizing s with
  | nil =>
      cases hrun
      exact h
  | cons a as ih =>
      obtain ⟨s', hs', hrun⟩ := Option.bind_eq_some_iff.mp hrun
      simp only [List.cons_append, AllSteps, hs'] at h
      exact ih h.2 hrun

/-- A condition that only the steps of `H` break is lost in a run by such a step. -/
theorem someStep_of_lost {P : σ → Prop} {H : σ → α → Prop} {s t : σ} {as bs : List α}
    (h : AllSteps step (fun s a => ∀ s' ∈ step s a, P s → ¬ P s' → H s a) s (as ++ bs)) (hs : P s)
    (hrun : run step s as = some t) (ht : ¬ P t) : SomeStep step H s as := by
  induction as generalizing s with
  | nil =>
      cases hrun
      exact absurd hs ht
  | cons a as ih =>
      obtain ⟨s', hs', hrun⟩ := Option.bind_eq_some_iff.mp hrun
      simp only [List.cons_append, AllSteps, hs'] at h
      simp only [SomeStep, hs']
      by_cases hP : P s'
      · exact Or.inr (ih h.2 hP hrun)
      · exact Or.inl (h.1 s' rfl hs hP)

/-! ## Rules for invariants -/

/-- An invariant holds at the end of a run. -/
theorem invariant_of_run {I : σ → Prop} (hstep : ∀ s a s', I s → step s a = some s' → I s') {s s' : σ} {as : List α}
    (hs : I s) (hrun : run step s as = some s') : I s' := by
  induction as generalizing s with
  | nil =>
      cases hrun
      exact hs
  | cons a as ih =>
      obtain ⟨t, ht, hrun⟩ := Option.bind_eq_some_iff.mp hrun
      exact ih (hstep s a t hs ht) hrun

/-- What each step that meets `G` keeps holds at the end of a run whose steps all meet `G`. -/
theorem invariant_of_allSteps {I : σ → Prop} {G : σ → α → Prop}
    (hstep : ∀ s a s', I s → G s a → step s a = some s' → I s') {s s' : σ} {as : List α}
    (hs : I s) (hG : AllSteps step G s as) (hrun : run step s as = some s') : I s' := by
  induction as generalizing s with
  | nil =>
      cases hrun
      exact hs
  | cons a as ih =>
      obtain ⟨t, ht, hrun⟩ := Option.bind_eq_some_iff.mp hrun
      simp only [AllSteps, ht] at hG
      exact ih (hstep s a t hs hG.1 ht) hG.2 hrun

/-- Two conditions that agree on the steps from states of an invariant are the same on runs. -/
theorem allSteps_congr {J : σ → Prop} {G H : σ → α → Prop} (hJ : ∀ s a s', J s → step s a = some s' → J s')
    (h : ∀ s a s', J s → step s a = some s' → (G s a ↔ H s a)) {s : σ} {as : List α} (hs : J s) :
    AllSteps step G s as ↔ AllSteps step H s as := by
  induction as generalizing s with
  | nil => exact Iff.rfl
  | cons a as ih =>
      simp only [AllSteps]
      cases ht : step s a with
      | none => exact Iff.rfl
      | some s' => exact and_congr (h s a s' hs ht) (ih (hJ s a s' hs ht))

/-- The rule for invariants: what each step keeps, a run keeps. -/
theorem allStates_of_step {I : σ → Prop} (hstep : ∀ s a s', I s → step s a = some s' → I s')
    {s : σ} {as : List α} (hs : I s) : AllStates step I s as := by
  induction as generalizing s with
  | nil => exact hs
  | cons a as ih =>
      refine ⟨hs, ?_⟩
      cases h : step s a with
      | none => trivial
      | some s' => exact ih (hstep s a s' hs h)

/-- The rule for guarded runs: when each step that meets `G` keeps `I`, a run whose steps all meet
`G` visits states of `I` only. -/
theorem allStates_of_allSteps {I : σ → Prop} {G : σ → α → Prop}
    (hstep : ∀ s a s', I s → G s a → step s a = some s' → I s')
    {s : σ} {as : List α} (hs : I s) (hG : AllSteps step G s as) : AllStates step I s as := by
  induction as generalizing s with
  | nil => exact hs
  | cons a as ih =>
      refine ⟨hs, ?_⟩
      simp only [AllSteps] at hG
      cases h : step s a with
      | none => trivial
      | some s' =>
          simp only [h] at hG
          exact ih (hstep s a s' hs hG.1 h) hG.2

/-- The rule for steps: what the invariant of a guarded run says of each step it takes. -/
theorem allSteps_of_allSteps {I : σ → Prop} {G H : σ → α → Prop}
    (hstep : ∀ s a s', I s → G s a → step s a = some s' → I s')
    (hH : ∀ s a s', I s → G s a → step s a = some s' → H s a)
    {s : σ} {as : List α} (hs : I s) (hG : AllSteps step G s as) : AllSteps step H s as := by
  induction as generalizing s with
  | nil => trivial
  | cons a as ih =>
      simp only [AllSteps] at hG ⊢
      cases h : step s a with
      | none => trivial
      | some s' =>
          simp only [h] at hG
          exact ⟨hH s a s' hs hG.1 h, ih (hstep s a s' hs hG.1 h) hG.2⟩

/-- The exact rule: when `J` is kept by the steps from states of `P`, and such a step ends in a state of `P` exactly when
it meets `G`, a run visits states of `P` only exactly when all its steps meet `G`. -/
theorem allStates_iff_allSteps {J P : σ → Prop} {G : σ → α → Prop}
    (hJ : ∀ s a s', J s → P s → step s a = some s' → J s')
    (hstep : ∀ s a s', J s → P s → step s a = some s' → (P s' ↔ G s a))
    {s : σ} {as : List α} (hs : J s) (hP : P s) :
    AllStates step P s as ↔ AllSteps step G s as := by
  induction as generalizing s with
  | nil => exact ⟨fun _ => trivial, fun _ => hP⟩
  | cons a as ih =>
      simp only [AllStates, AllSteps, hP, true_and]
      cases h : step s a with
      | none => exact Iff.rfl
      | some s' =>
          have hiff := hstep s a s' hs hP h
          have hs' := hJ s a s' hs hP h
          constructor
          · intro h'
            exact ⟨hiff.mp h'.head, (ih hs' h'.head).mp h'⟩
          · rintro ⟨hg, h'⟩
            exact (ih hs' (hiff.mpr hg)).mpr h'

/-- The exact rule with a condition on the steps too: when such a step ends in a state of `P` and meets `K` exactly when it
meets `G`, a run visits states of `P` only, by steps of `K`, exactly when all its steps meet `G`. -/
theorem allStates_and_allSteps_iff {J P : σ → Prop} {G K : σ → α → Prop}
    (hJ : ∀ s a s', J s → P s → K s a → step s a = some s' → J s')
    (hstep : ∀ s a s', J s → P s → step s a = some s' → (P s' ∧ K s a ↔ G s a))
    {s : σ} {as : List α} (hs : J s) (hP : P s) :
    AllStates step P s as ∧ AllSteps step K s as ↔ AllSteps step G s as := by
  induction as generalizing s with
  | nil => exact ⟨fun _ => trivial, fun _ => ⟨hP, trivial⟩⟩
  | cons a as ih =>
      simp only [AllStates, AllSteps, hP, true_and]
      cases h : step s a with
      | none => exact ⟨fun _ => trivial, fun _ => ⟨trivial, trivial⟩⟩
      | some s' =>
          have hiff := hstep s a s' hs hP h
          constructor
          · rintro ⟨hstates, hk, hsteps⟩
            have hP' := hstates.head
            exact ⟨hiff.mp ⟨hP', hk⟩, (ih (hJ s a s' hs hP hk h) hP').mp ⟨hstates, hsteps⟩⟩
          · rintro ⟨hg, hsteps⟩
            obtain ⟨hP', hk⟩ := hiff.mpr hg
            obtain ⟨hstates, hks⟩ := (ih (hJ s a s' hs hP hk h) hP').mpr hsteps
            exact ⟨hstates, hk, hks⟩

/-- The rule for a condition that steps of `G` break and steps of `H` restore, the others leaving it as it is: it
holds at the end of a run exactly when each `G` is followed by an `H`. -/
theorem holds_iff_followed {J P : σ → Prop} {G H : σ → α → Prop}
    (hJ : ∀ s a s', J s → step s a = some s' → J s')
    (hG : ∀ s a s', J s → step s a = some s' → G s a → ¬ P s')
    (hH : ∀ s a s', J s → step s a = some s' → H s a → P s')
    (hkeep : ∀ s a s', J s → step s a = some s' → ¬ G s a → ¬ H s a → (P s' ↔ P s))
    {s s' : σ} {as : List α} (hs : J s) (hP : P s) (hrun : run step s as = some s') :
    P s' ↔ Followed step G H s as := by
  -- From a state where `P` does not hold, a step of `H` is needed as well.
  suffices hgen : P s' ↔ (P s ∨ SomeStep step H s as) ∧ Followed step G H s as by
    simpa only [hP, true_or, true_and] using hgen
  clear hP
  induction as generalizing s with
  | nil =>
      simp only [run_nil, Option.some.injEq] at hrun
      subst hrun
      simp only [SomeStep, Followed, or_false, and_true]
  | cons a as ih =>
      simp only [run_cons, Option.bind_eq_some_iff] at hrun
      obtain ⟨t, hstep, hrun⟩ := hrun
      simp only [SomeStep, Followed, hstep, ih (hJ s a t hs hstep) hrun]
      by_cases hg : G s a
      · have hnot := hG s a t hs hstep hg
        have hnh : ¬ H s a := fun hh => hnot (hH s a t hs hstep hh)
        simp only [hg, hnot, hnh, false_or, forall_const]
        exact ⟨fun h => ⟨Or.inr h.1, h.1, h.2⟩, fun h => ⟨h.2.1, h.2.2⟩⟩
      · by_cases hh : H s a
        · have ht := hH s a t hs hstep hh
          simp only [hg, hh, ht, true_or, or_true, true_and, false_imp_iff]
        · have hiff := hkeep s a t hs hstep hg hh
          simp only [hg, hh, hiff, false_or, false_imp_iff, true_and]

end Itou.Lib
