import Mathlib.Logic.Function.Basic
import Itou.Users
import Itou.Lib.Runs

/-!
# Telling France Travail about an approval

One approval, the trigger `plan_pe_notification_on_date_updates`, the command `send_approvals_to_pe` and the transactions
that save the approval, each statement being a step. A run of the command has the approval in hand from the query of its
batch to the update that records the outcome.
-/

namespace Itou.Approvals.PeNotification

/-! ## Rows -/

/-- `PEApiNotificationStatus`. -/
inductive Status where
  | pending
  | ready
  | success
  | error
  | shouldRetry
  deriving DecidableEq

/-- `PEApiEndpoint`. -/
inductive Endpoint where
  | rechercheIndividu
  | miseAJourPassIae
  deriving DecidableEq

structure Dates where
  startAt : Int
  endAt : Int
  deriving DecidableEq

/-- The columns of `PENotificationMixin`. -/
structure Notification where
  status : Status
  time : Option Int
  endpoint : Option Endpoint
  exitCode : Option String
  deriving DecidableEq

/-- A row of `approvals_approval`, or an instance of `Approval`. -/
structure Approval where
  dates : Dates
  notification : Notification
  originSiaeKind : CompanyKind
  deriving DecidableEq

/-- What is read of the user of the approval and of the profile. -/
structure User where
  firstName : String
  lastName : String
  nir : String
  birthdate : Option Int
  peObfuscatedNir : Option String
  deriving DecidableEq

/-- The trigger: what an `UPDATE` of the dates writes, or nothing where it raises. -/
def planPeNotificationOnDateUpdates (old new : Approval) : Option Approval :=
  if new.dates = old.dates then some new
  else if new.notification.status ≠ old.notification.status then none
  else some { new with notification := { new.notification with status := .pending } }

/-! ## `notify_pole_emploi` -/

/-- An answer of the API, `PoleEmploiAPIException` or `PoleEmploiAPIBadResponse`. -/
inductive Response (α : Type) where
  | ok (data : α)
  | apiException
  | badResponse (responseCode : String)
  deriving DecidableEq

/-- `siae_kind_to_ft_type_siae`. -/
def siaeKindToFtTypeSiae : CompanyKind → Option Nat
  | .aci => some 836
  | .ai => some 837
  | .ea => some 838
  | .eatt => some 840
  | .ei => some 838
  | .eiti => some 840
  | .etti => some 839
  | .geiq => some 838
  | .opcs => none

/-- What a notification ends with: the columns to write, the user, and the dates that the API acknowledged. -/
structure Outcome where
  notification : Notification
  user : User
  acknowledged : Option Dates
  deriving DecidableEq

/-- `pe_maj_pass`, for an instance with these dates. -/
def peMajPass (dates : Dates) (user : User) (now : Int) : Response Unit → Outcome
  | .apiException => ⟨⟨.shouldRetry, now, none, none⟩, user, none⟩
  | .badResponse responseCode => ⟨⟨.error, now, some .miseAJourPassIae, some responseCode⟩, user, none⟩
  | .ok _ => ⟨⟨.success, now, none, none⟩, user, some dates⟩

/-- `notify_pole_emploi`. The two responses are those of the calls that it may make. -/
def notifyPoleEmploi (self : Approval) (user : User) (localdate : Int → Int) (now : Int)
    (rechercheIndividu : Response String) (miseAJourPassIae : Response Unit) : Outcome :=
  if self.dates.startAt > localdate now then ⟨⟨.pending, now, none, some "STARTS_IN_FUTURE"⟩, user, none⟩
  else if siaeKindToFtTypeSiae self.originSiaeKind = none then
    ⟨⟨.error, now, none, some "INVALID_SIAE_KIND"⟩, user, none⟩
  else if user.firstName = "" ∨ user.lastName = "" ∨ user.nir = "" ∨ user.birthdate = none then
    ⟨⟨.pending, now, none, some "MISSING_USER_DATA"⟩, user, none⟩
  else if user.peObfuscatedNir.getD "" = "" then
    match rechercheIndividu with
    | .apiException => ⟨⟨.shouldRetry, now, none, none⟩, user, none⟩
    | .badResponse responseCode => ⟨⟨.error, now, some .rechercheIndividu, some responseCode⟩, user, none⟩
    | .ok idNational =>
        peMajPass self.dates { user with peObfuscatedNir := some idNational } now miseAJourPassIae
  else peMajPass self.dates user now miseAJourPassIae

/-! ## Steps -/

/-- The approval in the hands of a run: the instance of the batch, and the outcome once the API has answered. -/
structure Hand where
  approval : Approval
  outcome : Option Notification
  deriving DecidableEq

/-- `instances` are those that open transactions have loaded, `hands` those of the runs, and `acknowledged` are the dates
of the last acknowledgement of France Travail. -/
structure State where
  approval : Approval
  user : User
  hasAcceptedJobApplication : Bool
  now : Int
  instances : Nat → Option Approval
  hands : Nat → Option Hand
  acknowledged : Option Dates

/-- A new approval. -/
def State.start (dates : Dates) (originSiaeKind : CompanyKind) (user : User) (now : Int) : State where
  approval := ⟨dates, ⟨.pending, none, none, none⟩, originSiaeKind⟩
  user
  hasAcceptedJobApplication := false
  now
  instances _ := none
  hands _ := none
  acknowledged := none

inductive Action where
  /-- A transaction loads the approval. -/
  | load (transaction : Nat)
  /-- `Approval.save`, which writes all the columns of the instance, with new dates or not. -/
  | save (transaction : Nat) (dates : Dates)
  /-- A statement that writes the dates alone, as the triggers of suspensions and prolongations do. -/
  | updateDates (dates : Dates)
  /-- Another transaction writes what the command reads of the user and of the job applications. -/
  | edit (user : User) (hasAcceptedJobApplication : Bool)
  /-- The first query of the command. -/
  | retryErrors
  /-- The second one. -/
  | markReady
  /-- The query of the batch. -/
  | readBatch (run : Nat)
  /-- `notify_pole_emploi`, up to its last update. -/
  | notify (run : Nat) (rechercheIndividu : Response String) (miseAJourPassIae : Response Unit)
  /-- `_pe_notification_update`. -/
  | record (run : Nat)
  /-- The run stops before the end. -/
  | abandon (run : Nat)
  | wait (duration : Nat)

/-- A save writes the instance with its dates. -/
def State.saved (s : State) (transaction : Nat) (dates : Dates) : Option Approval :=
  (s.instances transaction).map fun approval => { approval with dates := dates }

/-- A transaction saves the approval, and the trigger raises: the transaction is rolled back. -/
def State.Raises (s : State) (action : Action) : Prop :=
  ∃ transaction dates, action = .save transaction dates ∧
    ∃ new ∈ s.saved transaction dates, planPeNotificationOnDateUpdates s.approval new = none

def State.setStatus (s : State) (status : Status) : State :=
  { s with approval := { s.approval with notification := { s.approval.notification with status := status } } }

def State.step (localdate : Int → Int) (s : State) : Action → Option State
  | .load transaction => some { s with instances := Function.update s.instances transaction (some s.approval) }
  | .save transaction dates =>
      (s.saved transaction dates).map fun new =>
        match planPeNotificationOnDateUpdates s.approval new with
        | none => { s with instances := Function.update s.instances transaction none }
        -- the instance does not see what the trigger writes
        | some approval => { s with approval, instances := Function.update s.instances transaction (some new) }
  | .updateDates dates =>
      (planPeNotificationOnDateUpdates s.approval { s.approval with dates := dates }).map fun approval =>
        { s with approval }
  | .edit user hasAcceptedJobApplication => some { s with user, hasAcceptedJobApplication }
  | .retryErrors => some <|
      if s.approval.notification.status = .error ∧ s.approval.notification.endpoint = some .rechercheIndividu ∧
          s.user.peObfuscatedNir ≠ none then s.setStatus .pending
      else s
  | .markReady => some <|
      if s.approval.notification.status = .pending ∧ s.approval.dates.startAt ≤ localdate s.now ∧
          s.hasAcceptedJobApplication ∧
          ¬ (s.user.nir = "" ∨ s.user.birthdate = none ∨ s.user.firstName = "" ∨ s.user.lastName = "") then
        s.setStatus .ready
      else s
  | .readBatch run =>
      if (s.approval.notification.status = .ready ∨ s.approval.notification.status = .shouldRetry) ∧
          s.hands run = none then
        some { s with hands := Function.update s.hands run (some ⟨s.approval, none⟩) }
      else none
  | .notify run rechercheIndividu miseAJourPassIae =>
      (s.hands run).bind fun hand =>
        if hand.outcome = none then
          let outcome := notifyPoleEmploi hand.approval s.user localdate s.now rechercheIndividu miseAJourPassIae
          some { s with
            user := outcome.user
            hands := Function.update s.hands run (some { hand with outcome := some outcome.notification })
            acknowledged := outcome.acknowledged.or s.acknowledged }
        else none
  | .record run =>
      (s.hands run).bind fun hand =>
        hand.outcome.map fun outcome =>
          { s with
            approval := { s.approval with notification := outcome }
            hands := Function.update s.hands run none }
  | .abandon run =>
      if s.hands run = none then none else some { s with hands := Function.update s.hands run none }
  | .wait duration => some { s with now := s.now + duration }

/-! ## What is claimed of a run -/

/-- The save of an instance whose status is that of the row, or that leaves the dates as they are and does not write a
success. -/
def State.SavesFresh (s : State) (transaction : Nat) (dates : Dates) : Prop :=
  ∀ approval ∈ s.instances transaction, approval.notification.status = s.approval.notification.status ∨
    dates = s.approval.dates ∧ approval.notification.status ≠ .success

/-- Saves are fresh, a run takes the approval when no run has it, and records a success when the dates of the row are
those that it took. -/
def State.Keeps (s : State) : Action → Prop
  | .save transaction dates => s.SavesFresh transaction dates
  | .readBatch _ => ∀ run, s.hands run = none
  | .record run => ∀ hand ∈ s.hands run, ∀ outcome ∈ hand.outcome, outcome.status = .success →
      hand.approval.dates = s.approval.dates
  | _ => True

/-- What France Travail acknowledged last is what the row has. -/
def State.Law (s : State) : Prop :=
  s.approval.notification.status = .success → (∀ run, s.hands run = none) →
    s.acknowledged = some s.approval.dates

end Itou.Approvals.PeNotification
