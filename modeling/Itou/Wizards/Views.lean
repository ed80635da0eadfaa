import Itou.Lib.Tables
import Itou.Lib.Texts

/-!
# Wizard sessions and `WizardView`

The data of a wizard in the session of a user, under a random name that the URLs of its steps hold, and the
fields of its forms.

The view that all wizards share. What a subclass overrides is a field; a wizard carries the facts about its
fields that the others rest on. `Env` is what a request reads elsewhere: its user, and the tables.
-/

namespace Itou.Wizards

open Itou.Lib

/-! ## Data -/

/-- A value that a form is given, or that it has cleaned. -/
inductive Value where
  | text (s : String)
  | flag (b : Bool)
  deriving DecidableEq

/-- `str(value)`. -/
def Value.str : Value → String
  | .text s => s
  | .flag true => "True"
  | .flag false => "False"

/-- What a form is bound to: the body of a request, or the cleaned data of a step. -/
abbrev Data := List (String × Value)

/-- `data.get(field)`. -/
def Data.get (data : Data) (field : String) : Option Value := data.lookup field

/-- A form, built with its initial data and its keyword arguments: its cleaned data, when the data is valid. -/
abbrev Form := Data → Option Data

/-! ## Fields -/

/-- A required `ChoiceField`. -/
def choiceField (choices : List String) (data : Data) (field : String) : Option String :=
  ((data.get field).map Value.str).filter fun s => s ≠ "" && s ∈ choices

/-- `CharField.to_python`, which strips, and the validator against null characters. -/
def charValue (data : Data) (field : String) : Option String :=
  let s := String.ofList (strip (((data.get field).map Value.str).getD "").toList)
  if '\x00' ∈ s.toList then none else some s

/-- A required `CharField`. -/
def charField (data : Data) (field : String) : Option String := (charValue data field).filter fun s => s ≠ ""

/-- A `BooleanField` with its checkbox: a text counts as checked, unless it is empty or says false. -/
def booleanField (data : Data) (field : String) : Bool :=
  match data.get field with
  | none => false
  | some (.flag b) => b
  | some (.text s) => s ≠ "" && s.toLower ≠ "false"

/-! ## Sessions -/

/-- What a `SessionNamespace` holds, with the kind that is stored beside it: the steps under their names, and the
other keys of the wizards. -/
structure Namespace where
  kind : String
  resetUrl : Option String
  applicationIds : List Nat := []
  serviceUid : String := ""
  jobSeekerPublicId : String := ""
  disclaimerDismissed : Bool := false
  steps : List (String × Data) := []
  deriving DecidableEq

/-- `wizard_session.get(step)`. -/
def Namespace.get (ns : Namespace) (step : String) : Option Data := ns.steps.lookup step

/-- `wizard_session.set(step, data)`. -/
def Namespace.set (ns : Namespace) (step : String) (data : Data) : Namespace :=
  { ns with steps := (step, data) :: ns.steps.filter fun e => e.1 ≠ step }

/-- The wizards in the session of a user, under their names. -/
abbrev Session := Table Namespace

@[simp] theorem Namespace.get_set (ns : Namespace) (step : String) (data : Data) :
    (ns.set step data).get step = some data := by
  simp [Namespace.get, Namespace.set]

theorem Namespace.get_set_ne (ns : Namespace) {step other : String} (data : Data) (h : other ≠ step) :
    (ns.set step data).get other = ns.get other := by
  have hne : (other == step) = false := by simpa using h
  simp only [Namespace.get, Namespace.set, List.lookup_cons, hne]
  induction ns.steps with
  | nil => rfl
  | cons e steps ih =>
      by_cases he : e.1 = step
      · rw [List.filter_cons_of_neg (by simpa using he), ih, List.lookup_cons, he, hne]
      · rw [List.filter_cons_of_pos (by simpa using he), List.lookup_cons, List.lookup_cons, ih]

/-! ## Cleaned data -/

theorem choiceField_again {choices : List String} {data rest : Data} {field s : String}
    (h : choiceField choices data field = some s) :
    choiceField choices ((field, .text s) :: rest) field = some s := by
  obtain ⟨_, hs⟩ := Option.filter_eq_some_iff.mp h
  simp only [choiceField, Data.get, List.lookup_cons, beq_self_eq_true, Option.map_some, Value.str]
  exact Option.filter_eq_some_iff.mpr ⟨rfl, hs⟩

theorem charField_again {data rest : Data} {field s : String} (h : charField data field = some s) :
    charField ((field, .text s) :: rest) field = some s := by
  obtain ⟨hvalue, hs⟩ := Option.filter_eq_some_iff.mp h
  refine Option.filter_eq_some_iff.mpr ⟨?_, hs⟩
  simp only [charValue, Option.ite_none_left_eq_some, Option.some.injEq] at hvalue
  obtain ⟨hnull, hstrip⟩ := hvalue
  have hagain : String.ofList (strip s.toList) = s := by
    rw [← hstrip, String.toList_ofList, strip_strip]
  rw [hstrip] at hnull
  simp only [charValue, Data.get, List.lookup_cons, beq_self_eq_true, Option.map_some, Value.str,
    Option.getD_some, hagain, if_neg hnull]

/-! ## `WizardView` -/

universe u

/-- What a request is answered. `done` is answered when `done()` has returned, on the data that it carries. -/
inductive Response where
  | notFound
  | forbidden
  | render
  | redirect (step : String)
  | done (ns : Namespace)
  | submitted (ns : Namespace) (body : Data)
  deriving DecidableEq

/-- An exception that nothing catches, after what has been called: nothing, `done()`, or the API that a subclass sends
its data to. -/
inductive Raised where
  | early
  | inDone (ns : Namespace)
  | afterSending (ns : Namespace) (body : Data)
  deriving DecidableEq

/-- The data that `done()` has been called on. -/
def doneOn : Except Raised Response → Option Namespace
  | .ok (.done ns) | .error (.inDone ns) => some ns
  | _ => none

/-- The data that has been sent. -/
def sentOn : Except Raised Response → Option (Namespace × Data)
  | .ok (.submitted ns body) | .error (.afterSending ns body) => some (ns, body)
  | _ => none

/-- The wizard is over: its session is deleted. -/
def Response.isOver : Response → Bool
  | done _ | submitted _ _ => true
  | _ => false

inductive Method where
  | get
  | post (body : Data)
  deriving DecidableEq

/-- A request to the URL of a step. -/
structure Request where
  method : Method
  name : Nat
  step : String
  deriving DecidableEq

/-! ## The methods -/

/-- The methods of a wizard that a subclass overrides. -/
structure Methods (Env : Type u) where
  expectedSessionKind : String
  /-- `setup_wizard`. `none` raises `Http404`. -/
  setupWizard : Env → Namespace → Option Namespace
  getSteps : Env → Namespace → List String
  /-- `get_form`. `none` raises another exception. -/
  getForm : Env → Namespace → String → Option Form
  /-- `test_func`. -/
  testFunc : Env → Bool
  /-- `done` returns: it does not raise. -/
  done : Env → Namespace → Bool
  /-- `get_context_data` does not raise. -/
  getContextData : Env → Namespace → String → Bool

namespace Methods

variable {Env : Type u} (methods : Methods Env) (env : Env)

/-- `get_next_step`. -/
def getNextStep (steps : List String) (step : String) : Option String := steps[steps.idxOf step + 1]?

/-- `find_step_with_invalid_data_until_step`, on the steps that are left. `none` when a form cannot be built. -/
def findStepWithInvalidDataUntilStep (ns : Namespace) (step : String) : List String → Option (Option String)
  | [] => some none
  | previous :: steps =>
      if previous = step then some none
      else
        match ns.get previous with
        | none => some (some previous)
        | some data =>
            match methods.getForm env ns previous with
            | none => none
            | some form =>
                if (form data).isSome then findStepWithInvalidDataUntilStep ns step steps
                else some (some previous)

/-- `load_session`. -/
def loadSession (session : Session) (name : Nat) : Option Namespace :=
  (session.lookup name).filter fun ns => ns.kind = methods.expectedSessionKind && ns.resetUrl.isSome

/-- `get`. -/
def get (session : Session) (ns : Namespace) (step : String) : Except Raised (Session × Response) :=
  match methods.findStepWithInvalidDataUntilStep env ns step (methods.getSteps env ns) with
  | none => .error .early
  | some (some invalidStep) => .ok (session, .redirect invalidStep)
  | some none => if methods.getContextData env ns step then .ok (session, .render) else .error .early

/-- What a POST does once the form is valid. -/
def formValid (session : Session) (name : Nat) (ns : Namespace) (steps : List String) (step : String)
    (cleaned : Data) : Except Raised (Session × Response) :=
  let ns := ns.set step cleaned
  match getNextStep steps step with
  | some nextStep => .ok (session.insert name ns, .redirect nextStep)
  | none =>
      match methods.findStepWithInvalidDataUntilStep env ns step steps with
      | none => .error .early
      | some (some invalidStep) => .ok (session.insert name ns, .redirect invalidStep)
      | some none => if methods.done env ns then .ok (session.erase name, .done ns) else .error (.inDone ns)

/-- `post`. -/
def post (session : Session) (name : Nat) (ns : Namespace) (step : String) (form : Form) (body : Data) :
    Except Raised (Session × Response) :=
  match form body with
  | some cleaned => methods.formValid env session name ns (methods.getSteps env ns) step cleaned
  | none => if methods.getContextData env ns step then .ok (session, .render) else .error .early

/-! ## What `done` can rely on -/

/-- Each step has data in the session that validates against its form. -/
def Complete (ns : Namespace) : Prop :=
  ∀ step ∈ methods.getSteps env ns, ∃ data ∈ ns.get step, ∃ form ∈ methods.getForm env ns step,
    (form data).isSome = true

/-- Each step but the last has data in the session that validates against its form, and the data of the last one, which
is not stored, validates too. -/
def CompleteWith (ns : Namespace) (body : Data) : Prop :=
  (∀ step ∈ (methods.getSteps env ns).dropLast, ∃ data ∈ ns.get step, ∃ form ∈ methods.getForm env ns step,
    (form data).isSome = true) ∧
  ∀ step ∈ (methods.getSteps env ns).getLast?, ∃ form ∈ methods.getForm env ns step, (form body).isSome = true

variable {methods env}

theorem valid_of_findStep {ns : Namespace} {step : String} {steps : List String}
    (h : methods.findStepWithInvalidDataUntilStep env ns step steps = some none) :
    ∀ s ∈ steps.takeWhile (· ≠ step), ∃ data ∈ ns.get s, ∃ form ∈ methods.getForm env ns s,
      (form data).isSome = true := by
  induction steps with
  | nil => exact fun s hs => nomatch hs
  | cons previous steps ih =>
      intro s hs
      by_cases hstep : previous = step
      · rw [List.takeWhile_cons_of_neg (by simpa using hstep)] at hs
        cases hs
      · rw [List.takeWhile_cons_of_pos (by simpa using hstep)] at hs
        simp only [findStepWithInvalidDataUntilStep, if_neg hstep] at h
        split at h
        · cases h
        · rename_i data hdata
          split at h
          · cases h
          · rename_i form hform
            split at h
            · rename_i hvalid
              rcases List.mem_cons.mp hs with rfl | hs
              · exact ⟨data, hdata, form, hform, hvalid⟩
              · exact ih h s hs
            · cases h

/-- A step without a next one is the last: all the others come before it. -/
theorem mem_takeWhile_of_last {steps : List String} {step s : String} (hlast : getNextStep steps step = none)
    (hs : s ∈ steps) (hne : s ≠ step) : s ∈ steps.takeWhile (· ≠ step) := by
  have hlength : steps.length ≤ steps.idxOf step + 1 := by
    simpa [getNextStep] using hlast
  induction steps with
  | nil => exact hs
  | cons x steps ih =>
      by_cases hx : x = step
      · subst hx
        rw [List.idxOf_cons_self, List.length_cons] at hlength
        have hnil : steps = [] := List.length_eq_zero_iff.mp (by omega)
        rw [hnil, List.mem_singleton] at hs
        exact absurd hs hne
      · rw [List.takeWhile_cons_of_pos (by simpa using hx)]
        rw [List.idxOf_cons_ne _ hx, List.length_cons] at hlength
        rcases List.mem_cons.mp hs with rfl | hs
        · exact List.mem_cons_self
        · refine List.mem_cons_of_mem _ (ih ?_ hs ?_)
          · simp only [getNextStep, List.getElem?_eq_none_iff]
            omega
          · omega

/-- What `post` can do. -/
theorem post_cases {session : Session} {name : Nat} {ns : Namespace} {step : String} {form : Form} {body : Data}
    {result : Except Raised (Session × Response)} (h : methods.post env session name ns step form body = result) :
    result = .error .early ∨ (form body = none ∧ result = .ok (session, .render)) ∨
      (∃ cleaned s, form body = some cleaned ∧
        result = .ok (session.insert name (ns.set step cleaned), .redirect s)) ∨
      ∃ cleaned, form body = some cleaned ∧ getNextStep (methods.getSteps env ns) step = none ∧
        methods.findStepWithInvalidDataUntilStep env (ns.set step cleaned) step (methods.getSteps env ns) =
          some none ∧
        (result = .ok (session.erase name, .done (ns.set step cleaned)) ∨
          result = .error (.inDone (ns.set step cleaned))) := by
  subst h
  unfold post
  split
  · rename_i cleaned hcleaned
    unfold formValid
    dsimp only
    split
    · exact Or.inr (Or.inr (Or.inl ⟨cleaned, _, hcleaned, rfl⟩))
    · rename_i hlast
      split
      · exact Or.inl rfl
      · exact Or.inr (Or.inr (Or.inl ⟨cleaned, _, hcleaned, rfl⟩))
      · rename_i hfind
        refine Or.inr (Or.inr (Or.inr ⟨cleaned, hcleaned, hlast, hfind, ?_⟩))
        split
        · exact Or.inl rfl
        · exact Or.inr rfl
  · rename_i hinvalid
    split
    · exact Or.inr (Or.inl ⟨hinvalid, rfl⟩)
    · exact Or.inl rfl

/-- The rule for subclasses that keep `post`: the steps do not depend on the data of a step, and cleaned data
validates again. -/
theorem post_doneOn {session : Session} {name : Nat} {ns ns' : Namespace} {step : String} {form : Form}
    {body : Data} (hsteps : ∀ cleaned, methods.getSteps env (ns.set step cleaned) = methods.getSteps env ns)
    (hagain : ∀ cleaned, form body = some cleaned →
      ∃ f ∈ methods.getForm env (ns.set step cleaned) step, (f cleaned).isSome = true)
    (h : doneOn ((methods.post env session name ns step form body).map Prod.snd) = some ns') :
    methods.Complete env ns' := by
  have hcomplete : ∀ cleaned, form body = some cleaned → getNextStep (methods.getSteps env ns) step = none →
      methods.findStepWithInvalidDataUntilStep env (ns.set step cleaned) step (methods.getSteps env ns) = some none →
      methods.Complete env (ns.set step cleaned) := by
    intro cleaned hcleaned hlast hfind s hs
    rw [hsteps] at hs
    by_cases hstep : s = step
    · subst hstep
      exact ⟨cleaned, Namespace.get_set ns s cleaned, hagain cleaned hcleaned⟩
    · exact valid_of_findStep hfind s (mem_takeWhile_of_last hlast hs hstep)
  rcases post_cases rfl with hpost | ⟨_, hpost⟩ | ⟨_, _, _, hpost⟩ | ⟨cleaned, hcleaned, hlast, hfind, hpost | hpost⟩
  all_goals rw [hpost] at h
  · cases h
  · cases h
  · cases h
  · cases h
    exact hcomplete cleaned hcleaned hlast hfind
  · cases h
    exact hcomplete cleaned hcleaned hlast hfind

theorem sentOn_post {session : Session} {name : Nat} {ns : Namespace} {step : String} {form : Form} {body : Data} :
    sentOn ((methods.post env session name ns step form body).map Prod.snd) = none := by
  rcases post_cases rfl with hpost | ⟨_, hpost⟩ | ⟨_, _, _, hpost⟩ | ⟨_, _, _, _, hpost | hpost⟩
  all_goals
    rw [hpost]
    rfl

theorem post_isOver {session session' : Session} {name : Nat} {ns : Namespace} {step : String} {form : Form}
    {body : Data} {response : Response}
    (h : methods.post env session name ns step form body = .ok (session', response))
    (hover : response.isOver = true) : session' = session.erase name := by
  rcases post_cases h with hpost | ⟨_, hpost⟩ | ⟨_, _, _, hpost⟩ | ⟨_, _, _, _, hpost | hpost⟩
  · cases hpost
  · cases hpost
    cases hover
  · cases hpost
    cases hover
  · cases hpost
    rfl
  · cases hpost

/-- The other wizards of the session are left. -/
theorem post_lookup_ne {session session' : Session} {name n : Nat} {ns : Namespace} {step : String} {form : Form}
    {body : Data} {response : Response} (hn : n ≠ name)
    (h : methods.post env session name ns step form body = .ok (session', response)) :
    session'.lookup n = session.lookup n := by
  rcases post_cases h with hpost | ⟨_, hpost⟩ | ⟨_, _, _, hpost⟩ | ⟨_, _, _, _, hpost | hpost⟩
  · cases hpost
  · cases hpost
    rfl
  · cases hpost
    exact AList.lookup_insert_ne hn
  · cases hpost
    exact AList.lookup_erase_ne hn
  · cases hpost

theorem post_invalid {session session' : Session} {name : Nat} {ns : Namespace} {step : String} {form : Form}
    {body : Data} {response : Response} (hinvalid : form body = none)
    (h : methods.post env session name ns step form body = .ok (session', response)) : session' = session := by
  rcases post_cases h with hpost | ⟨_, hpost⟩ | ⟨_, _, hvalid, _⟩ | ⟨_, hvalid, _⟩
  · cases hpost
  · cases hpost
    rfl
  · rw [hinvalid] at hvalid
    cases hvalid
  · rw [hinvalid] at hvalid
    cases hvalid

end Methods

/-! ## The view -/

/-- A subclass: its methods, its `post`, and what the facts about all wizards rest on. -/
structure WizardView (Env : Type u) extends Methods Env where
  post : Env → Session → Nat → Namespace → String → Form → Data → Except Raised (Session × Response)
  /-- When `done` has been called, the data of all the steps was stored and valid. -/
  post_doneOn : ∀ env session name ns step form body, getForm env ns step = some form → step ∈ getSteps env ns →
    ∀ ns', doneOn ((post env session name ns step form body).map Prod.snd) = some ns' → toMethods.Complete env ns'
  /-- When a subclass has sent what it collected itself, the data was complete. -/
  post_sentOn : ∀ env session name ns step form body, getForm env ns step = some form →
    ∀ ns' body', sentOn ((post env session name ns step form body).map Prod.snd) = some (ns', body') →
      toMethods.CompleteWith env ns' body'
  /-- A wizard that is over has its session deleted. -/
  post_isOver : ∀ env session name ns step form body session' response,
    post env session name ns step form body = .ok (session', response) → response.isOver = true →
      session' = session.erase name
  /-- The other wizards of the session are left. -/
  post_lookup_ne : ∀ env session name ns step form body session' response n, n ≠ name →
    post env session name ns step form body = .ok (session', response) →
      session'.lookup n = session.lookup n
  /-- A POST whose data is not valid writes nothing. -/
  post_invalid : ∀ env session name ns step form body session' response, form body = none →
    post env session name ns step form body = .ok (session', response) → session' = session

namespace WizardView

variable {Env : Type u} (view : WizardView Env) (env : Env)

/-- What the session becomes when `setup_wizard` has changed the data of the wizard. -/
def changed (session : Session) (name : Nat) (ns ns' : Namespace) : Session :=
  if ns' = ns then session else session.insert name ns'

/-- The request after `setup_wizard`. -/
def dispatch (session : Session) (ns : Namespace) (request : Request) : Except Raised (Session × Response) :=
  if request.step ∉ view.getSteps env ns then .ok (session, .notFound)
  else
    match view.getForm env ns request.step with
    | none => .error .early
    | some form =>
        if !view.testFunc env then .ok (session, .forbidden)
        else
          match request.method with
          | .get => view.toMethods.get env session ns request.step
          | .post body => view.post env session request.name ns request.step form body

/-- Handle a request. The session is not saved after an exception, which is a server error. -/
def handle (session : Session) (request : Request) : Session × Except Raised Response :=
  match view.loadSession session request.name with
  | none => (session, .ok .notFound)
  | some ns =>
      match view.setupWizard env ns with
      | none => (session, .ok .notFound)
      | some ns' =>
          match view.dispatch env (changed session request.name ns ns') ns' request with
          | .error raised => (session, .error raised)
          | .ok result => (result.1, .ok result.2)

/-- The form that a POST is bound to, when the request gets that far. -/
def boundForm (session : Session) (request : Request) : Option Form :=
  (view.loadSession session request.name).bind fun ns => (view.setupWizard env ns).bind fun ns' =>
    if request.step ∈ view.getSteps env ns' && view.testFunc env then view.getForm env ns' request.step
    else none

/-- The data of the POST validates. -/
def validates (session : Session) (request : Request) (body : Data) : Bool :=
  (view.boundForm env session request).any fun form => (form body).isSome

end WizardView

end Itou.Wizards
