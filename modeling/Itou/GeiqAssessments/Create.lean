import Itou.Lib.Runs
import Itou.Users
import Mathlib.Data.List.Dedup
import Mathlib.Data.List.Sort
import Mathlib.Logic.Function.Basic

/-!
# Creation of GEIQ assessments

An assessment covers the main GEIQ, some of its antennas, or both. The view locks the row of the campaign, reads the
assessments that exist and disables the boxes of what they cover. Requests run in transactions that interleave.
-/

namespace Itou.GeiqAssessments.Create

open Itou.Lib

/-! ## Rows -/

structure AssessmentCampaign where
  pk : Nat
  year : Int
  openingDate : Int
  submissionDeadline : Int

/-- An antenna, as label gives it. -/
structure LabelAntenna where
  id : Nat
  nom : String
  siret : String
  cp : String

structure LabelGeiq where
  id : Nat
  nom : String
  siret : String
  cp : String
  antennes : List LabelAntenna

structure Company extends Itou.Company where
  siret : String

/-- An element of `label_antennas`. -/
structure AssessmentAntenna where
  id : Nat
  name : String
  postCode : String
  deriving DecidableEq

/-- The columns of an assessment that its creation writes. -/
structure Assessment where
  createdBy : Nat
  campaign : Nat
  labelGeiqId : Nat
  labelGeiqName : String
  labelGeiqPostCode : String
  labelAntennas : List AssessmentAntenna
  withMainGeiq : Bool
  companies : List Nat
  deriving DecidableEq

/-- The tables that the creations read and do not write. The choices are the keys that `ddets` and `dreets` accept. -/
structure Context where
  campaigns : List AssessmentCampaign
  labelInfos : Nat → Option (List LabelGeiq)
  companies : List Company
  ddets : List String
  dreets : List String

/-- The user, its organization, what it posts, and the day. -/
structure Post where
  user : Nat
  organization : Company
  isCurrentOrganizationAdmin : Bool
  data : List (String × String)
  year : Int
  today : Int

/-! ## Form -/

/-- `request.POST.get`: the last value. -/
def Post.get (post : Post) (name : String) : Option String :=
  (post.data.reverse.find? fun entry => entry.1 = name).map Prod.snd

/-- `CheckboxInput.value_from_datadict`. -/
def checkboxValue : Option String → Bool
  | none => false
  | some value =>
      if value.toLower = "true" then true
      else if value.toLower = "false" then false
      else value ≠ ""

/-- A boolean field of the form. -/
structure Field where
  name : String
  disabled : Bool

structure CreateForm where
  antennaNames : List (Nat × String)
  existingAntennaIds : List Nat
  existingMainGeiq : Bool

namespace CreateForm

variable (form : CreateForm) (ctx : Context) (post : Post)

def getAntennaField (antennaId : Nat) : String := "antenna_" ++ antennaId.repr

/-- The antennas that have a field: 0 is the main GEIQ. -/
def antennaIds : List Nat := (form.antennaNames.map Prod.fst).filter (· ≠ 0)

def mainField : Field := ⟨"main_geiq", form.existingMainGeiq⟩

def antennaFields : List Field :=
  form.antennaIds.map fun antennaId => ⟨getAntennaField antennaId, antennaId ∈ form.existingAntennaIds⟩

/-- `cleaned_data.get(name)` of the boxes of the main GEIQ and of the antennas: a field that is disabled has its initial
value, whatever is posted. -/
def cleanedBox (name : String) : Bool :=
  match (form.mainField :: form.antennaFields).find? fun field => field.name = name with
  | none => false
  | some field => if field.disabled then false else checkboxValue (post.get name)

/-- A `ModelChoiceField` that is not required: `cleaned_data.get(name)`. -/
def cleanedChoice (choices : List String) (name : String) : Option String :=
  (post.get name).filter fun value => value ∈ choices

def choiceErrors (choices : List String) (name : String) : List (String × String) :=
  match post.get name with
  | none => []
  | some value => if value = "" ∨ value ∈ choices then [] else [(name, "invalid_choice")]

/-- `clean`. The errors of the form itself are under `__all__`. -/
def cleanErrors : List (String × String) :=
  let conventionWithDdets := checkboxValue (post.get "convention_with_ddets")
  let conventionWithDreets := checkboxValue (post.get "convention_with_dreets")
  (if !conventionWithDdets && !conventionWithDreets then
    [("__all__", "Vous devez indiquer au moins une institution avec laquelle vous êtes conventionné.")]
  else if conventionWithDdets && (cleanedChoice post ctx.ddets "ddets").isNone then
    [("ddets", "Ce champ est obligatoire.")]
  else if conventionWithDreets && (cleanedChoice post ctx.dreets "dreets").isNone then
    [("dreets", "Ce champ est obligatoire.")]
  else []) ++
  (if (form.mainField :: form.antennaFields).any fun field => form.cleanedBox post field.name then []
  else [("__all__", "Vous devez choisir au moins une structure concernée par cette convention.")])

def errors : List (String × String) :=
  choiceErrors post ctx.ddets "ddets" ++ choiceErrors post ctx.dreets "dreets" ++ form.cleanErrors ctx post

/-- `is_valid`: a form without data is not bound. -/
def isValid : Bool := decide (post.data ≠ []) && decide (form.errors ctx post = [])

/-- `conflicting_antennas`: what is posted for fields that are disabled. -/
def conflictingAntennas : List Nat :=
  (if form.existingMainGeiq && decide (¬ (post.get "main_geiq").getD "" = "") then [0] else []) ++
  form.antennaIds.filter fun antennaId =>
    decide (antennaId ∈ form.existingAntennaIds) && decide (¬ (post.get (getAntennaField antennaId)).getD "" = "")

end CreateForm

/-! ## View -/

namespace Post

variable (ctx : Context) (post : Post)

/-- `employer_has_access_to_assessments`. -/
def hasAccess : Bool := decide (post.organization.kind = .geiq) && post.isCurrentOrganizationAdmin

/-- The campaign of last year, when it is open. -/
def currentCampaign : Option AssessmentCampaign :=
  (ctx.campaigns.find? fun campaign => campaign.year = post.year - 1).filter fun campaign =>
    campaign.openingDate ≤ post.today ∧ post.today ≤ campaign.submissionDeadline

/-- The GEIQ of label that the organization belongs to. -/
def geiqInfo (campaign : Nat) : Option LabelGeiq :=
  ((ctx.labelInfos campaign).getD []).find? fun geiqData =>
    post.organization.siret ∈ geiqData.siret :: geiqData.antennes.map LabelAntenna.siret

end Post

namespace LabelGeiq

variable (geiqInfo : LabelGeiq)

/-- The keys of the dictionaries of antennas. -/
def antennaIds : List Nat := (geiqInfo.antennes.map LabelAntenna.id).dedup

/-- The antenna of this key: the last one. -/
def antenna (id : Nat) : Option LabelAntenna := geiqInfo.antennes.reverse.find? fun antenna => antenna.id = id

def antennaNames : List (Nat × String) :=
  geiqInfo.antennaIds.map fun id => (id, ((geiqInfo.antenna id).map LabelAntenna.nom).getD "")

end LabelGeiq

/-- The form, from the assessments that exist. -/
def createForm (geiqInfo : LabelGeiq) (existing : List Assessment) : CreateForm where
  antennaNames := geiqInfo.antennaNames
  existingAntennaIds := existing.flatMap fun a => a.labelAntennas.map AssessmentAntenna.id
  existingMainGeiq := existing.any Assessment.withMainGeiq

section View

variable (ctx : Context) (post : Post) (campaign : Nat) (geiqInfo : LabelGeiq)

/-- The antennas that are checked, in a stable order. -/
def labelAntennas (form : CreateForm) : List AssessmentAntenna :=
  let checked := form.antennaNames.filter fun antenna => form.cleanedBox post (CreateForm.getAntennaField antenna.1)
  let antennas := checked.map fun antenna =>
    { id := antenna.1, name := antenna.2, postCode := ((geiqInfo.antenna antenna.1).map LabelAntenna.cp).getD "" }
  antennas.insertionSort fun a b => a.id ≤ b.id

/-- The `siret` of the GEIQ and of the antennas that are covered. -/
def sirets (form : CreateForm) : List String :=
  let checked := form.antennaNames.filter fun antenna => form.cleanedBox post (CreateForm.getAntennaField antenna.1)
  (if form.cleanedBox post "main_geiq" then [geiqInfo.siret] else []) ++
    checked.filterMap fun antenna => (geiqInfo.antenna antenna.1).map LabelAntenna.siret

/-- The assessment that is created from the assessments that were read. -/
def create (existing : List Assessment) : Option Assessment :=
  let form := createForm geiqInfo existing
  if form.isValid ctx post ∧ form.conflictingAntennas post = [] then
    some
      { createdBy := post.user
        campaign := campaign
        labelGeiqId := geiqInfo.id
        labelGeiqName := geiqInfo.nom
        labelGeiqPostCode := geiqInfo.cp
        labelAntennas := labelAntennas post geiqInfo form
        withMainGeiq := form.cleanedBox post "main_geiq"
        companies := post.organization.pk :: (ctx.companies.filter fun company =>
          company.kind = .geiq ∧ company.siret ∈ (sirets post geiqInfo form).filter (· ≠ "") ∧
            company.pk ≠ post.organization.pk).map (·.pk) }
  else none

end View

/-! ## Transactions -/

/-- Where a transaction stands. `created` holds what it inserted, if it did. -/
inductive Phase where
  | started
  | locked
  | read (existing : List Assessment)
  | created (assessment : Option Assessment)

/-- A `POST` for which the view found a campaign and a GEIQ. -/
structure Transaction where
  post : Post
  campaign : Nat
  geiqInfo : LabelGeiq
  phase : Phase

/-- The committed assessments, the transactions that run, and who has locked the row of each campaign. -/
structure State where
  assessments : List Assessment
  transactions : Nat → Option Transaction
  lock : Nat → Option Nat

/-- The next statement of a transaction, or its end. -/
inductive Action where
  | begin (pid : Nat) (post : Post)
  | selectForUpdate (pid : Nat)
  | selectAssessments (pid : Nat)
  | create (pid : Nat)
  | commit (pid : Nat)
  | rollback (pid : Nat)

namespace State

variable (ctx : Context) (s : State)

def setPhase (pid : Nat) (t : Transaction) (phase : Phase) : State :=
  { s with transactions := Function.update s.transactions pid (some { t with phase }) }

/-- A transaction ends and releases its lock. -/
def close (pid : Nat) (t : Transaction) (assessments : List Assessment) : State where
  assessments := assessments
  transactions := Function.update s.transactions pid none
  lock := if s.lock t.campaign = some pid then Function.update s.lock t.campaign none else s.lock

/-- The view refuses the request, shows an empty page, or starts its transaction. -/
def startTransaction (pid : Nat) (post : Post) : Option State :=
  match s.transactions pid with
  | some _ => none
  | none =>
      if post.hasAccess then
        match post.currentCampaign ctx with
        | none => some s
        | some campaign => match post.geiqInfo ctx campaign.pk with
          | none => some s
          | some geiqInfo =>
              some { s with transactions :=
                Function.update s.transactions pid (some ⟨post, campaign.pk, geiqInfo, .started⟩) }
      else some s

def step : Action → Option State
  | .begin pid post => s.startTransaction ctx pid post
  | .selectForUpdate pid => do
      let t ← s.transactions pid
      match t.phase with
      -- The statement waits as long as another transaction has the lock.
      | .started =>
          if s.lock t.campaign = none then
            some { s.setPhase pid t .locked with lock := Function.update s.lock t.campaign (some pid) }
          else none
      | _ => none
  | .selectAssessments pid => do
      let t ← s.transactions pid
      match t.phase with
      | .locked =>
          some (s.setPhase pid t (.read (s.assessments.filter fun a =>
            a.campaign = t.campaign ∧ a.labelGeiqId = t.geiqInfo.id)))
      | _ => none
  | .create pid => do
      let t ← s.transactions pid
      match t.phase with
      | .read existing => some (s.setPhase pid t (.created (create ctx t.post t.campaign t.geiqInfo existing)))
      | _ => none
  | .commit pid => do
      let t ← s.transactions pid
      match t.phase with
      | .created assessment => some (s.close pid t (s.assessments ++ assessment.toList))
      | _ => none
  | .rollback pid => do
      let t ← s.transactions pid
      some (s.close pid t s.assessments)

/-- No assessment and no transaction. -/
def start : State where
  assessments := []
  transactions := fun _ => none
  lock := fun _ => none

end State

/-! ## What a run is judged by -/

namespace Assessment

/-- Two assessments of one GEIQ in one campaign have nothing in common. -/
def Separate (a b : Assessment) : Prop :=
  a.campaign = b.campaign → a.labelGeiqId = b.labelGeiqId →
    (∀ x ∈ a.labelAntennas, ∀ y ∈ b.labelAntennas, x.id ≠ y.id) ∧ ¬ (a.withMainGeiq ∧ b.withMainGeiq)

/-- The assessment covers the main GEIQ or an antenna. -/
def Covers (a : Assessment) : Prop := a.withMainGeiq ∨ a.labelAntennas ≠ []

end Assessment

end Itou.GeiqAssessments.Create
