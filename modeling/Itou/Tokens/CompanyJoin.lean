import Itou.Lib.Tables
import Itou.Tokens.Generators

/-!
# Joining a company with its signup link

The requests to `CompanyJoinView`, each in a transaction of its own. A query sees the rows that were committed before it.
An `INSERT` waits for another transaction that has inserted the same key, and fails when the row is there.
-/

namespace Itou.Tokens

open Itou.Lib Itou.Organizations

/-! ## Requests -/

/-- How a request ends. -/
inductive JoinAnswer where
  /-- The warning of `CompanyBaseView.dispatch`. -/
  | refused
  | notProfessional
  | joined
  /-- `IntegrityError`. -/
  | raised
  deriving DecidableEq

/-- Where a request stands: its link was checked, it has counted the active members, it has inserted the membership, it
has ended. For the statements, `since` and `countedAt` are the numbers of members who had joined then. -/
inductive JoinPhase where
  | checked (since : Nat)
  | counted (since : Nat) (isAdmin : Bool) (countedAt : Nat)
  | inserted (since : Nat) (isAdmin : Bool) (countedAt : Nat)
  | ended (answer : JoinAnswer)
  deriving DecidableEq

/-- A link is the primary key of the company and a token. -/
structure JoinRequest where
  user : Nat
  company : Nat
  token : String
  phase : JoinPhase
  deriving DecidableEq

/-- A membership that was committed, for the link of a request. `wasEmpty` tells if the company had no active member just
before. -/
structure Joined where
  token : String
  membership : Membership
  wasEmpty : Bool
  deriving DecidableEq

/-- The key that a request has inserted, when it has not ended. -/
def JoinRequest.insertedKey (r : JoinRequest) : Option (Nat × Nat) :=
  match r.phase with
  | .inserted _ _ _ => some (r.user, r.company)
  | _ => none

def JoinRequest.link (r : JoinRequest) : Nat × String := (r.company, r.token)

def Joined.link (e : Joined) : Nat × String := (e.membership.organization, e.token)

/-- The committed rows and the requests. `joined` is kept for the statements, in the order of the commits. -/
structure JoinState where
  db : Db
  companies : List Company
  now : Instant
  requests : Table JoinRequest
  joined : List Joined

namespace JoinState

variable (signing : Signing) (s : JoinState)

def start (db : Db) (companies : List Company) (now : Instant) : JoinState := ⟨db, companies, now, ∅, []⟩

/-- `company.members.count()`, which counts the memberships that are not active too. -/
def membersCount (db : Db) (company : Nat) : Nat := (db.memberships.rows.filter (·.organization = company)).length

/-- `company_signup_token_generator.check_token`. -/
def opens (now : Instant) (members company : Nat) (token : String) : Bool :=
  companySignupTokenGenerator.checkToken signing now (companySignupHashValue company members) token = some true

/-- `CompanyBaseView.dispatch`, and the first lines of `get`. The user is logged in. -/
def dispatch (i user company : Nat) (token : String) : Option JoinState :=
  if i ∈ s.requests then none
  else (s.db.requestUser user).map fun account =>
    let phase : JoinPhase :=
      if !(s.companies.any fun c => c.pk = company && c.isActive) ||
          !opens signing s.now (membersCount s.db company) company token then .ended .refused
      else if !account.isProfessional then .ended .notProfessional
      else .checked s.joined.length
    { s with requests := s.requests.insert i ⟨user, company, token, phase⟩ }

/-- `is_admin=self.company.active_members.count() == 0`. -/
def count (i : Nat) : Option JoinState :=
  match s.requests.lookup i with
  | some ⟨user, company, token, .checked since⟩ => some { s with
      requests := s.requests.insert i ⟨user, company, token,
        .counted since (s.db.activeMemberships company).isEmpty s.joined.length⟩ }
  | _ => none

/-- Another request has inserted the membership, and has not ended. -/
def isWaiting (user company : Nat) : Bool :=
  s.requests.rows.any fun r => r.insertedKey = some (user, company)

/-- `CompanyMembership.objects.create`. -/
def insert (i : Nat) : Option JoinState :=
  match s.requests.lookup i with
  | some ⟨user, company, token, .counted since isAdmin countedAt⟩ =>
      if s.isWaiting user company then none
      else some { s with
        requests := s.requests.insert i ⟨user, company, token,
          if (s.db.membership? company user).isSome then .ended .raised else .inserted since isAdmin countedAt⟩ }
  | _ => none

/-- The row that a request has inserted. -/
def newMembership (user company : Nat) (isAdmin : Bool) : Membership :=
  ⟨s.db.memberships.freshPk, user, company, s.now.val, isAdmin, true, s.now.val, s.now.val, none⟩

/-- The end of the request, which redirects the member. -/
def commit (i : Nat) : Option JoinState :=
  match s.requests.lookup i with
  | some ⟨user, company, token, .inserted _ isAdmin _⟩ =>
      (s.db.memberships.insert (s.newMembership user company isAdmin)).map fun memberships => { s with
        db := { s.db with memberships := memberships }
        requests := s.requests.insert i ⟨user, company, token, .ended .joined⟩
        joined := s.joined ++ [⟨token, s.newMembership user company isAdmin,
          (s.db.activeMemberships company).isEmpty⟩] }
  | _ => none

end JoinState

inductive JoinAction where
  | dispatch (i user company : Nat) (token : String)
  | count (i : Nat)
  | insert (i : Nat)
  | commit (i : Nat)
  /-- Time passes, up to an instant that is not before. -/
  | wait (until' : Instant)
  deriving DecidableEq

def JoinState.step (signing : Signing) (s : JoinState) : JoinAction → Option JoinState
  | .dispatch i user company token => s.dispatch signing i user company token
  | .count i => s.count i
  | .insert i => s.insert i
  | .commit i => s.commit i
  | .wait now => if s.now ≤ now then some { s with now } else none

/-! ## Requests under way -/

/-- The user is logged in, and is a professional. -/
def Professional (db : Db) (user : Nat) : Prop := (db.requestUser user).any (·.isProfessional) = true

/-- The number of members who had joined when the link of the request was checked. -/
def JoinPhase.since : JoinPhase → Option Nat
  | .checked since | .counted since _ _ | .inserted since _ _ => some since
  | .ended _ => none

/-- The actions of requests that are under way. -/
def JoinAction.goesOn : JoinAction → Bool
  | .count _ | .insert _ | .commit _ => true
  | .dispatch _ _ _ _ | .wait _ => false

end Itou.Tokens
