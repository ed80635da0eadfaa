import Itou.JobApplications.Workflow
import Itou.Lib.Runs
import Itou.Wizards.Views

/-!
# The wizards

The subclasses of `WizardView`: adding an employee record, refusing job applications, and orienting a job seeker
towards a service. A session has any number of them, under their names.
-/

namespace Itou.Wizards

open Itou.Lib
open Itou.JobApplications (JobApplicationState SenderKind Transition)

/-! ## What a request reads -/

/-- What the wizards read of a user. -/
structure Person where
  pk : Nat
  publicId : String
  firstName : String
  lastName : String
  invertedFullName : String
  email : String
  deriving DecidableEq

/-- A job application that a company has received. -/
structure Received where
  pk : Nat
  jobSeeker : Nat
  senderKind : SenderKind
  state : JobApplicationState
  deriving DecidableEq

/-- The user of the request and the tables. The answers of other services and the checks of Django on uploaded
files, on e-mail addresses and on digits are given. -/
structure Env where
  /-- `request.current_organization` of an employer, with `can_use_employee_record`. -/
  company : Option (CompanyKind × Bool)
  /-- The job seekers of the hirings of the company that are eligible as an employee record. -/
  employees : List Person
  jobSeekers : List Person
  /-- The approvals of an employee that the company has hired with. -/
  approvals : Nat → List Nat
  /-- `company.job_applications_received`. -/
  received : List Received
  /-- The uids of the services. -/
  services : List String
  isEmail : String → Bool
  isDecimal : Char → Bool
  filesAreValid : Bool
  /-- `create_orientation` of the API of DORA succeeds. -/
  orientationCreated : Bool
  /-- What follows does not raise, when the columns are long enough: the uid that DORA answers is new. -/
  orientationInserted : Bool
  /-- `done` does not raise: it finds again what the forms have found. -/
  doneReturns : Bool

/-! ## Adding an employee record -/

namespace AddView

def chooseEmployee : String := "choose-employee"

def chooseApproval : String := "choose-approval"

/-- `AddEmployeeRecordChooseEmployeeForm`. The key of the empty choice is `None`, which is compared as a text. -/
def chooseEmployeeForm (employees : List Person) : Form := fun data =>
  (choiceField ("None" :: (employees.filter fun e => e.invertedFullName ≠ "").map fun e => toString e.pk) data
    "employee").map fun s => [("employee", .text s)]

/-- `AddEmployeeRecordChooseApprovalForm`. -/
def chooseApprovalForm (approvals : List Nat) : Form := fun data =>
  (choiceField (approvals.map toString) data "approval").map fun s => [("approval", .text s)]

/-- The employee whose key the first step has stored. -/
def storedEmployee (env : Env) (ns : Namespace) : Option Person := do
  let data ← ns.get chooseEmployee
  let value ← data.get "employee"
  env.jobSeekers.find? fun p => toString p.pk = value.str

def methods : Methods Env where
  expectedSessionKind := "add-employee-record"
  setupWizard env ns := env.company.map fun _ => ns
  getSteps _ _ := [chooseEmployee, chooseApproval]
  getForm env ns step :=
    if step = chooseEmployee then some (chooseEmployeeForm env.employees)
    else (storedEmployee env ns).map fun employee => chooseApprovalForm (env.approvals employee.pk)
  testFunc env := env.company.any Prod.snd
  done env _ := env.doneReturns
  getContextData _ _ _ := true

theorem setupWizard_eq {env : Env} {ns ns' : Namespace} (h : methods.setupWizard env ns = some ns') : ns' = ns := by
  obtain ⟨_, _, rfl⟩ := Option.map_eq_some_iff.mp h
  rfl

theorem storedEmployee_set (env : Env) (ns : Namespace) (data : Data) :
    storedEmployee env (ns.set chooseApproval data) = storedEmployee env ns := by
  rw [storedEmployee, Namespace.get_set_ne ns data (by decide), storedEmployee]

theorem getForm_chooseEmployee (env : Env) (ns : Namespace) :
    methods.getForm env ns chooseEmployee = some (chooseEmployeeForm env.employees) := by
  simp only [methods, ↓reduceIte]

theorem getForm_chooseApproval (env : Env) (ns : Namespace) : methods.getForm env ns chooseApproval =
    (storedEmployee env ns).map fun employee => chooseApprovalForm (env.approvals employee.pk) := by
  have hne : chooseApproval ≠ chooseEmployee := by decide
  simp only [methods, if_neg hne]

/-- What a step has cleaned validates again. -/
theorem again {env : Env} {ns : Namespace} {step : String} {form : Form} {body cleaned : Data}
    (hform : methods.getForm env ns step = some form) (hsteps : step ∈ methods.getSteps env ns)
    (hcleaned : form body = some cleaned) :
    ∃ f ∈ methods.getForm env (ns.set step cleaned) step, (f cleaned).isSome = true := by
  rcases List.mem_pair.mp hsteps with rfl | rfl
  · rw [getForm_chooseEmployee, Option.some.injEq] at hform
    subst hform
    obtain ⟨s, hs, rfl⟩ := Option.map_eq_some_iff.mp hcleaned
    refine ⟨chooseEmployeeForm env.employees, getForm_chooseEmployee env _, ?_⟩
    simp only [chooseEmployeeForm, choiceField_again hs, Option.map_some, Option.isSome_some]
  · rw [getForm_chooseApproval] at hform
    obtain ⟨employee, hemployee, rfl⟩ := Option.map_eq_some_iff.mp hform
    obtain ⟨s, hs, rfl⟩ := Option.map_eq_some_iff.mp hcleaned
    refine ⟨chooseApprovalForm (env.approvals employee.pk), ?_, ?_⟩
    · rw [getForm_chooseApproval, storedEmployee_set, hemployee]
      rfl
    · simp only [chooseApprovalForm, choiceField_again hs, Option.map_some, Option.isSome_some]

def view : WizardView Env where
  toMethods := methods
  post := methods.post
  post_doneOn _ _ _ _ _ _ _ hform hstep _ h :=
    Methods.post_doneOn (fun _ => rfl) (fun _ hcleaned => again hform hstep hcleaned) h
  post_sentOn _ _ _ _ _ _ _ _ _ _ h := absurd (Methods.sentOn_post.symm.trans h) (Option.some_ne_none _).symm
  post_isOver _ _ _ _ _ _ _ _ _ h hover := Methods.post_isOver h hover
  post_lookup_ne _ _ _ _ _ _ _ _ _ _ hn h := Methods.post_lookup_ne hn h
  post_invalid _ _ _ _ _ _ _ _ _ hinvalid h := Methods.post_invalid hinvalid h

end AddView

/-! ## Refusing job applications -/

namespace RefuseWizardView

def reason : String := "reason"

def jobSeekerAnswer : String := "job-seeker-answer"

def prescriberAnswer : String := "prescriber-answer"

/-- `RefusalReason.displayed_choices`. -/
def displayedChoices (kind : CompanyKind) : List String :=
  ["did_not_come", "did_not_come_to_interview", "hired_elsewhere", "training", "non_eligible", "not_mobile",
    "not_interested", "lacking_skills", "incompatible", "prevent_objectives", "no_position", "duplicate",
    "other"].filter fun choice => kind ≠ .geiq || choice ∉ ["prevent_objectives", "non_eligible"]

/-- `JobApplicationRefusalReasonForm`. -/
def reasonForm (kind : CompanyKind) : Form := fun data =>
  (choiceField (displayedChoices kind) data "refusal_reason").map fun s =>
    [("refusal_reason", .text s), ("refusal_reason_shared_with_job_seeker",
      .flag (booleanField data "refusal_reason_shared_with_job_seeker"))]

/-- `JobApplicationRefusalJobSeekerAnswerForm`. -/
def jobSeekerAnswerForm : Form := fun data =>
  (charField data "job_seeker_answer").map fun s => [("job_seeker_answer", .text s)]

/-- `JobApplicationRefusalPrescriberAnswerForm`. -/
def prescriberAnswerForm : Form := fun data =>
  (charField data "prescriber_answer").map fun s => [("prescriber_answer", .text s)]

/-- `_get_and_lock_received_applications`. -/
def applications (env : Env) (ids : List Nat) : List Received := env.received.filter fun a => a.pk ∈ ids

/-- `setup_wizard` keeps the applications that the company still has, which updates the list of the session. -/
def setupWizard (env : Env) (ns : Namespace) : Option Namespace :=
  if env.company.isNone then none
  else
    match applications env ns.applicationIds with
    | [] => none
    | kept =>
        some (if kept.length ≠ ns.applicationIds.length then { ns with applicationIds := kept.map Received.pk } else ns)

def methods : Methods Env where
  expectedSessionKind := "job-applications-batch-refuse"
  setupWizard := setupWizard
  getSteps env ns :=
    if (applications env ns.applicationIds).any fun a => a.senderKind = .prescriber then
      [reason, jobSeekerAnswer, prescriberAnswer]
    else [reason, jobSeekerAnswer]
  getForm env _ step :=
    if step = reason then env.company.map fun company => reasonForm company.1
    else if step = jobSeekerAnswer then some jobSeekerAnswerForm
    else some prescriberAnswerForm
  testFunc env := env.company.isSome
  done env _ := env.doneReturns
  -- Only the first step is shown without the reason that it stores.
  getContextData _ ns step := step = reason || (ns.get reason).any fun data => (data.get "refusal_reason").isSome

/-- The list of the applications is all that `setup_wizard` changes. -/
theorem setupWizard_eq {env : Env} {ns ns' : Namespace} (h : methods.setupWizard env ns = some ns') :
    ns' = ns ∨ ns' = { ns with applicationIds := (applications env ns.applicationIds).map Received.pk } := by
  change setupWizard env ns = some ns' at h
  unfold setupWizard at h
  split at h
  · cases h
  · split at h
    · cases h
    · rw [Option.some.injEq] at h
      split at h
      · exact Or.inr h.symm
      · exact Or.inl h.symm

/-- What a step has cleaned validates again. -/
theorem again {env : Env} {ns : Namespace} {step : String} {form : Form} {body cleaned : Data}
    (hform : methods.getForm env ns step = some form) (hcleaned : form body = some cleaned) :
    ∃ f ∈ methods.getForm env (ns.set step cleaned) step, (f cleaned).isSome = true := by
  refine ⟨form, hform, ?_⟩
  simp only [methods] at hform
  split at hform
  · obtain ⟨company, _, rfl⟩ := Option.map_eq_some_iff.mp hform
    obtain ⟨s, hs, rfl⟩ := Option.map_eq_some_iff.mp hcleaned
    simp only [reasonForm, choiceField_again hs, Option.map_some, Option.isSome_some]
  · split at hform
    · rw [Option.some.injEq] at hform
      subst hform
      obtain ⟨s, hs, rfl⟩ := Option.map_eq_some_iff.mp hcleaned
      simp only [jobSeekerAnswerForm, charField_again hs, Option.map_some, Option.isSome_some]
    · rw [Option.some.injEq] at hform
      subst hform
      obtain ⟨s, hs, rfl⟩ := Option.map_eq_some_iff.mp hcleaned
      simp only [prescriberAnswerForm, charField_again hs, Option.map_some, Option.isSome_some]

def view : WizardView Env where
  toMethods := methods
  post := methods.post
  post_doneOn _ _ _ _ _ _ _ hform _ _ h :=
    Methods.post_doneOn (fun _ => rfl) (fun _ hcleaned => again hform hcleaned) h
  post_sentOn _ _ _ _ _ _ _ _ _ _ h := absurd (Methods.sentOn_post.symm.trans h) (Option.some_ne_none _).symm
  post_isOver _ _ _ _ _ _ _ _ _ h hover := Methods.post_isOver h hover
  post_lookup_ne _ _ _ _ _ _ _ _ _ _ hn h := Methods.post_lookup_ne hn h
  post_invalid _ _ _ _ _ _ _ _ _ hinvalid h := Methods.post_invalid hinvalid h

end RefuseWizardView

/-! ## Orienting a job seeker -/

namespace OrientationWizardView

def conformity : String := "confirm"

def referent : String := "fill"

def documents : String := "submit"

/-- `normalize_phone_number`. -/
def normalizePhoneNumber (isDecimal : Char → Bool) (phoneNumber : String) : Option String :=
  let stripped := strip phoneNumber.toList
  let normalized :=
    if ['+', '3', '3'].isPrefixOf stripped then
      match (stripped.drop 3).filter isDecimal with
      | [] => stripped
      | rest => '0' :: rest
    else
      let digits := stripped.filter isDecimal
      if ['0', '0', '3', '3'].isPrefixOf digits then '0' :: digits.drop 4 else digits
  if normalized.length = 10 && normalized.head? = some '0' then some (String.ofList normalized) else none

/-- `get_missing_orientation_beneficiary_field_labels`. -/
def missingBeneficiaryFields (jobSeeker : Person) : List String :=
  let missing (label s : String) : List String := if strip s.toList = [] then [label] else []
  missing "Prénom" jobSeeker.firstName ++ missing "Nom" jobSeeker.lastName ++
    missing "Adresse e-mail" jobSeeker.email

/-- `OrientationConformityForm`. -/
def conformityForm (jobSeeker : Person) : Form := fun data =>
  if booleanField data "confirms_conditions" && missingBeneficiaryFields jobSeeker = [] then
    some [("confirms_conditions", .flag true)]
  else none

/-- `OrientationReferentForm`. -/
def referentForm (env : Env) : Form := fun data => do
  let lastName ← charField data "referent_last_name"
  let firstName ← charField data "referent_first_name"
  let phone ← (charField data "referent_phone").bind (normalizePhoneNumber env.isDecimal)
  let email ← (charField data "referent_email").filter fun s => env.isEmail s
  let orientationReason ← charValue data "orientation_reason"
  return [("referent_last_name", .text lastName), ("referent_first_name", .text firstName),
    ("referent_phone", .text phone), ("referent_email", .text email),
    ("orientation_reason", .text orientationReason)]

/-- `OrientationDocumentsForm`. -/
def documentsForm (env : Env) : Form := fun data =>
  if env.filesAreValid && booleanField data "gdpr_consent" then some [("gdpr_consent", .flag true)] else none

/-- The job seeker of the wizard. -/
def jobSeeker (env : Env) (ns : Namespace) : Option Person :=
  env.jobSeekers.find? fun p => p.publicId = ns.jobSeekerPublicId

def methods : Methods Env where
  expectedSessionKind := "orientation"
  setupWizard env ns :=
    if ns.serviceUid ∈ env.services && (jobSeeker env ns).isSome then some ns else none
  getSteps _ _ := [conformity, referent, documents]
  getForm env ns step :=
    if step = conformity then (jobSeeker env ns).map conformityForm
    else if step = referent then some (referentForm env)
    else some (documentsForm env)
  testFunc _ := true
  -- `done` is not overridden, and raises `NotImplementedError`.
  done _ _ := false
  getContextData _ _ _ := true

theorem setupWizard_eq {env : Env} {ns ns' : Namespace} (h : methods.setupWizard env ns = some ns') : ns' = ns := by
  obtain ⟨_, hsame⟩ := Option.ite_none_right_eq_some.mp h
  exact (Option.some.inj hsame).symm

/-- The columns of `Orientation` are long enough for the data of the referent, whose form sets no limit. -/
def referentFits (ns : Namespace) : Bool :=
  (ns.get referent).any fun data =>
    [("referent_last_name", 140), ("referent_first_name", 140), ("referent_phone", 10),
      ("referent_email", 254)].all fun column =>
        ((data.get column.1).map Value.str).any fun s => s.length ≤ column.2

/-- `post`. The last step does not call `done`: it sends the orientation, saves it, then deletes the session. -/
def post (env : Env) (session : Session) (name : Nat) (ns : Namespace) (step : String) (form : Form)
    (body : Data) : Except Raised (Session × Response) :=
  if step = documents then
    match methods.findStepWithInvalidDataUntilStep env ns step (methods.getSteps env ns) with
    | none => .error .early
    | some (some invalidStep) => .ok (session, .redirect invalidStep)
    | some none =>
        if (form body).isNone || !env.orientationCreated then .ok (session, .render)
        else if referentFits ns && env.orientationInserted then .ok (session.erase name, .submitted ns body)
        else .error (.afterSending ns body)
  else methods.post env session name ns step form body

/-- What the last step can do. -/
theorem post_cases {env : Env} {session : Session} {name : Nat} {ns : Namespace} {step : String} {form : Form}
    {body : Data} {result : Except Raised (Session × Response)}
    (h : post env session name ns step form body = result) :
    result = .error .early ∨ (∃ s, result = .ok (session, .redirect s)) ∨ result = .ok (session, .render) ∨
      (step = documents ∧
        methods.findStepWithInvalidDataUntilStep env ns step (methods.getSteps env ns) = some none ∧
        (form body).isSome = true ∧
        (result = .ok (session.erase name, .submitted ns body) ∨ result = .error (.afterSending ns body))) ∨
      step ≠ documents ∧ methods.post env session name ns step form body = result := by
  subst h
  unfold post
  split
  · rename_i hlast
    split
    · exact Or.inl rfl
    · exact Or.inr (Or.inl ⟨_, rfl⟩)
    · rename_i hfind
      split
      · exact Or.inr (Or.inr (Or.inl rfl))
      · rename_i hsent
        simp only [Bool.or_eq_true, Option.isNone_iff_eq_none, not_or] at hsent
        refine Or.inr (Or.inr (Or.inr (Or.inl ⟨hlast, hfind, Option.isSome_iff_ne_none.mpr hsent.1, ?_⟩)))
        split
        · exact Or.inl rfl
        · exact Or.inr rfl
  · rename_i hlast
    exact Or.inr (Or.inr (Or.inr (Or.inr ⟨hlast, rfl⟩)))

/-- The last step is the only one without a next step. -/
theorem doneOn_post {env : Env} {session : Session} {name : Nat} {ns : Namespace} {step : String} {form : Form}
    {body : Data} (hstep : step ∈ methods.getSteps env ns) :
    doneOn ((post env session name ns step form body).map Prod.snd) = none := by
  rcases post_cases rfl with hpost | ⟨_, hpost⟩ | hpost | ⟨_, _, _, hpost | hpost⟩ | ⟨hne, hpost⟩
  · rw [hpost]
    rfl
  · rw [hpost]
    rfl
  · rw [hpost]
    rfl
  · rw [hpost]
    rfl
  · rw [hpost]
    rfl
  · rw [← hpost]
    rcases Methods.post_cases rfl with hpost | ⟨_, hpost⟩ | ⟨_, _, _, hpost⟩ | ⟨_, _, hnext, _⟩
    · rw [hpost]
      rfl
    · rw [hpost]
      rfl
    · rw [hpost]
      rfl
    · simp only [methods, List.mem_cons, List.not_mem_nil, or_false] at hstep
      rcases hstep with rfl | rfl | rfl
      · exact absurd hnext (Option.some_ne_none referent)
      · exact absurd hnext (Option.some_ne_none documents)
      · exact absurd rfl hne

/-- The orientation is sent on the data of the steps before the last and on that of the last one, which are valid. -/
theorem post_sentOn {env : Env} {session : Session} {name : Nat} {ns ns' : Namespace} {step : String}
    {form : Form} {body body' : Data} (hform : methods.getForm env ns step = some form)
    (h : sentOn ((post env session name ns step form body).map Prod.snd) = some (ns', body')) :
    methods.CompleteWith env ns' body' := by
  have hcomplete : step = documents →
      methods.findStepWithInvalidDataUntilStep env ns step (methods.getSteps env ns) = some none →
      (form body).isSome = true → methods.CompleteWith env ns body := by
    rintro rfl hfind hvalid
    refine ⟨Methods.valid_of_findStep hfind, ?_⟩
    rintro s ⟨⟩
    exact ⟨form, hform, hvalid⟩
  rcases post_cases rfl with hpost | ⟨_, hpost⟩ | hpost | ⟨hlast, hfind, hvalid, hpost | hpost⟩ | ⟨_, hpost⟩
  · rw [hpost] at h
    cases h
  · rw [hpost] at h
    cases h
  · rw [hpost] at h
    cases h
  · rw [hpost] at h
    cases h
    exact hcomplete hlast hfind hvalid
  · rw [hpost] at h
    cases h
    exact hcomplete hlast hfind hvalid
  · rw [← hpost, Methods.sentOn_post] at h
    cases h

def view : WizardView Env where
  toMethods := methods
  post := post
  post_doneOn _ _ _ _ _ _ _ _ hstep _ h := absurd ((doneOn_post hstep).symm.trans h) (Option.some_ne_none _).symm
  post_sentOn _ _ _ _ _ _ _ hform _ _ h := post_sentOn hform h
  post_isOver _ _ _ _ _ _ _ _ _ h hover := by
    rcases post_cases h with hpost | ⟨_, hpost⟩ | hpost | ⟨_, _, _, hpost | hpost⟩ | ⟨_, hpost⟩
    · cases hpost
    · cases hpost
      cases hover
    · cases hpost
      cases hover
    · cases hpost
      rfl
    · cases hpost
    · exact Methods.post_isOver hpost hover
  post_lookup_ne _ _ _ _ _ _ _ _ _ _ hn h := by
    rcases post_cases h with hpost | ⟨_, hpost⟩ | hpost | ⟨_, _, _, hpost | hpost⟩ | ⟨_, hpost⟩
    · cases hpost
    · cases hpost
      rfl
    · cases hpost
      rfl
    · cases hpost
      exact AList.lookup_erase_ne hn
    · cases hpost
    · exact Methods.post_lookup_ne hn hpost
  post_invalid _ _ _ _ _ _ _ _ _ hinvalid h := by
    rcases post_cases h with hpost | ⟨_, hpost⟩ | hpost | ⟨_, _, hvalid, _⟩ | ⟨_, hpost⟩
    · cases hpost
    · cases hpost
      rfl
    · cases hpost
      rfl
    · rw [hinvalid] at hvalid
      cases hvalid
    · exact Methods.post_invalid hinvalid hpost

end OrientationWizardView

/-! ## The wizards of a session -/

/-- The subclasses of `WizardView`. -/
inductive Wizard where
  | addEmployeeRecord
  | refuse
  | orientation
  deriving DecidableEq

def Wizard.view : Wizard → WizardView Env
  | .addEmployeeRecord => AddView.view
  | .refuse => RefuseWizardView.view
  | .orientation => OrientationWizardView.view

/-- The session of a user. The name of the next wizard stands for a random one, which is new; `called` has the names of
the wizards whose `done` has been called, once for each call, and `finished` those that are over. -/
structure State where
  session : Session := ∅
  nextName : Nat := 0
  called : List Nat := []
  finished : List Nat := []

inductive Action where
  | startAdd (resetUrl : Option String)
  | startRefuse (env : Env) (applicationIds : List Nat) (nextUrl : Option String)
  | startOrientation (env : Env) (serviceUid jobSeekerPublicId : String)
  | request (wizard : Wizard) (env : Env) (request : Request)
  | dismissOrientationDisclaimer (name : Nat)

namespace State

/-- `initialize_session_and_start`. -/
def initializeSessionAndStart (s : State) (ns : Namespace) : State :=
  if ns.resetUrl.isNone then s
  else { s with session := s.session.insert s.nextName ns, nextName := s.nextName + 1 }

/-- `_start_refuse_wizard`, which keeps the applications that can be refused. -/
def startRefuse (s : State) (env : Env) (applicationIds : List Nat) (nextUrl : Option String) : State :=
  if nextUrl.isNone || env.company.isNone then s
  else
    match (RefuseWizardView.applications env applicationIds).filter fun a => a.state ∈ Transition.refuse.sources with
    | [] => s
    | kept => s.initializeSessionAndStart
        { kind := RefuseWizardView.methods.expectedSessionKind
          resetUrl := nextUrl
          applicationIds := kept.map Received.pk }

/-- `start_orientation`, for a service that is oriented to with the form. -/
def startOrientation (s : State) (env : Env) (serviceUid jobSeekerPublicId : String) : State :=
  if serviceUid ∈ env.services && env.jobSeekers.any fun p => p.publicId = jobSeekerPublicId then
    s.initializeSessionAndStart
      { kind := OrientationWizardView.methods.expectedSessionKind
        resetUrl := some serviceUid
        serviceUid
        jobSeekerPublicId }
  else s

/-- A request to a step. -/
def request (s : State) (wizard : Wizard) (env : Env) (request : Request) : State :=
  let result := wizard.view.handle env s.session request
  { s with
    session := result.1
    called := if (doneOn result.2).isSome then request.name :: s.called else s.called
    finished := if result.2.toOption.any Response.isOver then request.name :: s.finished else s.finished }

/-- `dismiss_orientation_disclaimer`. -/
def dismissOrientationDisclaimer (s : State) (name : Nat) : State :=
  match (s.session.lookup name).filter fun ns => ns.kind = OrientationWizardView.methods.expectedSessionKind with
  | none => s
  | some ns => { s with session := s.session.insert name { ns with disclaimerDismissed := true } }

/-- One step. Each request is answered. -/
def step (s : State) : Action → Option State
  | .startAdd resetUrl =>
      some (s.initializeSessionAndStart { kind := AddView.methods.expectedSessionKind, resetUrl })
  | .startRefuse env applicationIds nextUrl => some (s.startRefuse env applicationIds nextUrl)
  | .startOrientation env serviceUid jobSeekerPublicId =>
      some (s.startOrientation env serviceUid jobSeekerPublicId)
  | .request wizard env request => some (s.request wizard env request)
  | .dismissOrientationDisclaimer name => some (s.dismissOrientationDisclaimer name)

end State

end Itou.Wizards
