import Itou.Nexus.Lemmas.Resources

/-!
# Full synchronisations, over whole runs
-/

namespace Itou.Nexus

open Itou.Lib

/-- What a history of synchronisations guarantees. -/
structure Synchronises (env : Env) (labels : List Label) : Prop where
  /-- No page fails. -/
  accepted : AllSteps (State.step env) (State.Accepts env) State.empty labels
  /-- After a completion that finds its run, the visible rows of the service are those last sent since the run began. -/
  mirrored : ∀ before service startedAt between after τ,
    labels = before ++ .initFullSync service startedAt :: (between ++ .completeFullSync service startedAt :: after) →
    run (State.step env) State.empty (before ++ .initFullSync service startedAt :: between) = some τ →
    τ.completes service startedAt = true → (τ.completeFullSync service startedAt).Mirrors env service between
  isolated : AllSteps (State.step env) (State.LeavesOthers env) State.empty labels
  /-- A run after which another one has started does not complete. -/
  lastStarted : ∀ before service startedAt between later between' after τ,
    labels = before ++ .initFullSync service startedAt ::
      (between ++ .initFullSync service later :: (between' ++ .completeFullSync service startedAt :: after)) →
    run (State.step env) State.empty
      (before ++ .initFullSync service startedAt :: (between ++ .initFullSync service later :: between')) = some τ →
    τ.completes service startedAt = false
  threshold : AllSteps (State.step env) State.ThresholdRight State.empty labels

/-- The state in which a part of a run starts, and what is known of it. -/
theorem run_part {env : Env} {σ₀ τ : State} {before labels rest : List Label} {label : Label} (hinv : σ₀.Inv env)
    (h : AllSteps (State.step env) (State.Careful env) σ₀ (before ++ label :: rest))
    (hrun : run (State.step env) σ₀ (before ++ label :: labels) = some τ) :
    ∃ σ σ' : State, σ.Inv env ∧ σ.Careful env label ∧ σ.step env label = some σ' ∧ σ'.Inv env ∧
      run (State.step env) σ₀ before = some σ ∧ AllSteps (State.step env) (State.Careful env) σ' rest ∧
      run (State.step env) σ' labels = some τ := by
  rw [run_append] at hrun
  obtain ⟨σ, hbefore, hrun⟩ := Option.bind_eq_some_iff.mp hrun
  obtain ⟨σ', hstep, hrun⟩ := Option.bind_eq_some_iff.mp hrun
  have hσ : σ.Inv env := invariant_of_run (fun _ _ _ hinv h => inv_step hinv h) hinv hbefore
  have hafter := h.after hbefore
  simp only [AllSteps, hstep] at hafter
  exact ⟨σ, σ', hσ, hafter.1, hstep, inv_step hσ hstep, hbefore, hafter.2, hrun⟩

/-- A full synchronisation mirrors its service, when its steps are careful. -/
theorem synchronises_of_careful (env : Env) (labels : List Label)
    (h : AllSteps (State.step env) (State.Careful env) State.empty labels) : Synchronises env labels := by
  have hinv {σ σ' : State} {label : Label} (hinv : σ.Inv env) (_ : σ.Careful env label)
      (hstep : σ.step env label = some σ') : σ'.Inv env := inv_step hinv hstep
  refine ⟨?_, ?_, ?_, ?_, ?_⟩
  · exact allSteps_of_allSteps (fun _ _ _ => hinv) (fun _ _ _ hinv hc _ => accepts_of_careful hinv hc) (inv_empty env) h
  · rintro before service startedAt between after τ rfl hrun hcompletes
    obtain ⟨σ, σ', hσ, hc, hstep, hσ', -, hafter, hbetween⟩ := run_part (inv_empty env) h hrun
    have hfresh := freshSince_run (freshSince_initFullSync hσ hc hstep) hσ' hafter.of_append hbetween
    exact mirrors_of_completes hfresh hcompletes
  · exact allSteps_of_allSteps (fun _ _ _ => hinv) (fun _ _ _ hinv _ _ => leavesOthers hinv) (inv_empty env) h
  · rintro before service startedAt between later between' after τ rfl hrun
    obtain ⟨_, σ, -, -, hstep, hσ, -, hafter, hrun⟩ := run_part (inv_empty env) h hrun
    obtain ⟨σ₁, σ₂, -, hlater, hstep', -, hbetween, -, hrun⟩ := run_part hσ hafter hrun
    have hfirst : σ₁.StartedFrom service startedAt :=
      invariant_of_run (fun _ _ _ hfrom h => startedFrom_step hfrom h) (startedFrom_initFullSync hstep) hbetween
    have hsecond : τ.StartedFrom service later :=
      invariant_of_run (fun _ _ _ hfrom h => startedFrom_step hfrom h) (startedFrom_initFullSync hstep') hrun
    exact hsecond.not_completes (Nat.lt_of_le_of_lt hfirst.clock hlater)
  · refine allSteps_of_allSteps (fun _ _ _ => hinv) (fun σ label _ _ hc _ => ?_) (inv_empty env) h
    cases label with
    | readThreshold service annotated => exact thresholdRight_iff.mpr hc
    | _ => trivial

/-! ## Two synchronisations -/

/-- E-mails are in lower case, and the kinds are those of the service. -/
def plain : Env where
  citext := id
  userKind _ kind := kind
  structureKind _ kind := kind

def userData (sourceId email : Text) : UserData where
  sourceId := sourceId
  sourceKind := ['G']
  firstName := ['A']
  lastName := ['B']
  email := email
  phone := []
  lastLogin := none
  auth := .proConnect

def structureData (sourceId : Text) : StructureData where
  sourceId := sourceId
  sourceKind := ['G']
  siret := none
  name := ['C']
  phone := []
  email := []
  addressLine1 := []
  addressLine2 := []
  postCode := []
  city := []
  department := []
  website := []
  openingHours := []
  accessibility := []
  description := []
  sourceLink := []

/-- The account of an e-mail is deleted, and recreated under another identifier. -/
def recreated : List Label :=
  [.initFullSync .dora 1, .syncUsers .dora [(userData ['1'] ['a', '@', 'b'], 2)], .completeFullSync .dora 1,
    .initFullSync .dora 3, .syncUsers .dora [(userData ['2'] ['a', '@', 'b'], 4)], .completeFullSync .dora 3]

/-- The second synchronisation fails on a row that it hides, and completes without the user. The property `threshold` of
an instance without annotation raises. -/
theorem recreated_not_synchronises :
    (run (State.step plain) State.empty recreated).map (fun σ => σ.visible (nexusUser plain) σ.users) = some [] ∧
      (run (State.step plain) State.empty recreated).map (fun σ => σ.thresholdProperty .dora none) = some none ∧
      ¬ Synchronises plain recreated :=
  ⟨by decide +kernel, by decide +kernel, fun h => absurd h.accepted (by decide +kernel)⟩

/-- A first synchronisation, of a user and a structure with their membership. -/
def first : List Label :=
  [.initFullSync .dora (defaultValidSince + 1),
    .syncUsers .dora [(userData ['1'] ['a', '@', 'b'], defaultValidSince + 2)],
    .syncStructures .dora [(structureData ['7'], defaultValidSince + 3)],
    .syncMemberships .dora [(⟨['9'], ['1'], ['7'], .administrator⟩, defaultValidSince + 4)],
    .completeFullSync .dora (defaultValidSince + 1), .readThreshold .dora true]

theorem first_synchronises : Synchronises plain first := by
  refine synchronises_of_careful plain first
    ⟨Nat.succ_pos _, ?_, ?_, ⟨?_, ?_⟩, trivial, Or.inl rfl, trivial⟩
  · exact (Upsert.upsert_isSome_iff fun s hs => absurd hs List.not_mem_nil).mp (by decide)
  · exact (Upsert.upsert_isSome_iff fun s hs => absurd hs List.not_mem_nil).mp (by decide)
  · decide +kernel
  · exact (Upsert.upsert_isSome_iff fun s hs => absurd hs List.not_mem_nil).mp (by decide)

end Itou.Nexus
