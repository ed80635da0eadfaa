import Itou.Wizards.Lemmas.Handling

/-!
# Theorems on wizards
-/

namespace Itou.Wizards

open Itou.Lib

namespace State

/-! ## The laws -/

/-- When `done` is called, each step has data in the session that validates against its form. What a wizard sends
without calling `done` is complete too. -/
def DoneWhenComplete (s : State) : Action → Prop
  | .request wizard env request =>
      (∀ ns, doneOn (wizard.view.handle env s.session request).2 = some ns → wizard.view.toMethods.Complete env ns) ∧
      ∀ ns body, sentOn (wizard.view.handle env s.session request).2 = some (ns, body) →
        wizard.view.toMethods.CompleteWith env ns body
  | _ => True

/-- `done` is called once for each wizard. -/
def CalledOnce (s : State) : Prop := s.called.Nodup

/-- Each wizard is over once: its `done` has returned, or what it has sent is saved. -/
def FinishedOnce (s : State) : Prop := s.finished.Nodup

/-- An exception leaves the session as it was. -/
def ErrorKeeps (s : State) : Action → Prop
  | .request wizard env request => ∀ raised, (wizard.view.handle env s.session request).2 = .error raised →
      (s.request wizard env request).session = s.session
  | _ => True

/-- A POST whose data does not validate changes nothing in the session. -/
def InvalidPostKeeps (s : State) : Action → Prop
  | .request wizard env request => ∀ body, request.method = .post body →
      wizard.view.validates env s.session request body = false →
        ∀ n, (s.request wizard env request).session.lookup n = s.session.lookup n
  | _ => True

/-- A POST whose data does not validate changes nothing in the session but the list of the applications to refuse, which
keeps those that the company still has. -/
def InvalidPostNarrows (s : State) : Action → Prop
  | .request wizard env request => ∀ body, request.method = .post body →
      wizard.view.validates env s.session request body = false →
        (∀ n, (s.request wizard env request).session.lookup n = s.session.lookup n) ∨
          wizard = .refuse ∧ ∀ n, (s.request wizard env request).session.lookup n =
            if n = request.name then (s.session.lookup n).map fun ns =>
              { ns with
                applicationIds := (RefuseWizardView.applications env ns.applicationIds).map Received.pk }
            else s.session.lookup n
  | _ => True

/-! ## One step -/

theorem doneWhenComplete (s : State) (action : Action) : s.DoneWhenComplete action := by
  cases action with
  | request wizard env request =>
      have hhandle : wizard.view.handle env s.session request = ((wizard.view.handle env s.session request).1, _) := rfl
      exact WizardView.handle_complete hhandle
  | _ => trivial

theorem errorKeeps (s : State) (action : Action) : s.ErrorKeeps action := by
  cases action with
  | request wizard env request =>
      intro raised hraised
      have hhandle : wizard.view.handle env s.session request = (_, .error raised) := Prod.ext rfl hraised
      exact WizardView.handle_error hhandle
  | _ => trivial

theorem invalidPostNarrows (s : State) (action : Action) : s.InvalidPostNarrows action := by
  cases action with
  | request wizard env request =>
      intro body hmethod hinvalid
      unfold State.request
      cases hhandle : wizard.view.handle env s.session request with
      | mk session result =>
          have hother : ∀ n, n ≠ request.name → session.lookup n = s.session.lookup n := fun n hn =>
            WizardView.handle_lookup_ne hhandle hn
          rcases WizardView.handle_invalid hhandle hmethod hinvalid with hsame | ⟨ns, ns', hns, hsetup, hns'⟩
          · exact Or.inl hsame
          · have hkeeps : ns' = ns → ∀ n, session.lookup n = s.session.lookup n := by
              rintro rfl n
              by_cases hn : n = request.name
              · rw [hn, hns, hns']
              · exact hother n hn
            cases wizard with
            | addEmployeeRecord => exact Or.inl (hkeeps (AddView.setupWizard_eq hsetup))
            | orientation => exact Or.inl (hkeeps (OrientationWizardView.setupWizard_eq hsetup))
            | refuse =>
                rcases RefuseWizardView.setupWizard_eq hsetup with heq | heq
                · exact Or.inl (hkeeps heq)
                · refine Or.inr ⟨rfl, fun n => ?_⟩
                  by_cases hn : n = request.name
                  · rw [if_pos hn, hn, hns, hns', heq]
                    rfl
                  · rw [if_neg hn]
                    exact hother n hn
  | _ => trivial

/-! ## Runs -/

/-- Over any sequence of starts and requests, `done` is called on complete and valid data, each wizard is over once, an
exception leaves the session, and a POST that does not validate changes nothing but the list of the applications to
refuse. -/
theorem wizards_finish_complete (actions : List Action) :
    AllSteps step DoneWhenComplete {} actions ∧ AllStates step FinishedOnce {} actions ∧
      AllSteps step ErrorKeeps {} actions ∧ AllSteps step InvalidPostNarrows {} actions :=
  ⟨allSteps_of_forall doneWhenComplete,
    (allStates_of_step (fun _ _ _ hs h => hs.step h) inv_start).mono fun _ hs => hs.nodup,
    allSteps_of_forall errorKeeps, allSteps_of_forall invalidPostNarrows⟩

/-- A job seeker whom the employer below has hired. -/
def hired : Person where
  pk := 1
  publicId := "1"
  firstName := "A"
  lastName := "B"
  invertedFullName := "B A"
  email := "a@b.fr"

/-- An employer whose company has received the given applications, and hired one job seeker with the approval 7. -/
def employer (received : List Received) (doneReturns : Bool) : Env where
  company := some (.ei, true)
  employees := [hired]
  jobSeekers := [hired]
  approvals := fun _ => [7]
  received
  services := []
  isEmail := fun _ => true
  isDecimal := Char.isDigit
  filesAreValid := true
  orientationCreated := true
  orientationInserted := true
  doneReturns

def received (pk : Nat) : Received where
  pk
  jobSeeker := pk
  senderKind := .jobSeeker
  state := .new

/-- Two applications are to be refused. -/
def startRefuseTwo : Action := .startRefuse (employer [received 1, received 2] true) [1, 2] (some "/")

/-- The approval of the employee, which is the last step. -/
def chooseApproval (doneReturns : Bool) : Action :=
  .request .addEmployeeRecord (employer [] doneReturns) ⟨.post [("approval", .text "7")], 0, "choose-approval"⟩

/-- A POST without a reason, after the application 2 has been transferred to another company: the list of the session
loses it, although the data of the POST does not validate. And a `done` that raises is called again by the next POST. -/
theorem not_wizards_finish_complete :
    ¬ AllSteps step InvalidPostKeeps {}
      [startRefuseTwo, .request .refuse (employer [received 1] true) ⟨.post [], 0, "reason"⟩] ∧
    ¬ AllStates step CalledOnce {}
      [.startAdd (some "/"),
        .request .addEmployeeRecord (employer [] true) ⟨.post [("employee", .text "1")], 0, "choose-employee"⟩,
        chooseApproval false, chooseApproval true] := by
  constructor
  · intro h
    have hkept := h.2.1 [] rfl (by decide) 0
    revert hkept
    decide
  · intro h
    have hcalled : [0, 0].Nodup := h.2.2.2.2
    revert hcalled
    decide

end State

end Itou.Wizards
