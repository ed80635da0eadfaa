import Itou.Organizations.Invitations
import Itou.Organizations.Models
import Mathlib.Algebra.Group.Nat.Defs

/-!
# Signed links

The generators of `itou/utils/tokens.py`. What they take from Django is a parameter: `int_to_base36`, `base36_to_int`
and `salted_hmac`, whose digest is taken to tell every salt and every value apart.

The views `request_admin_role` and `confirm_admin_role`, with those that give the role, take it away or deactivate a
member, as the steps of a system with a clock. A view that answers with an error takes no step. A link is confirmed with
a token that was sent: no other is accepted, since signatures cannot be forged.
-/

namespace Itou.Tokens

open Itou.Organizations

/-! ## What Django provides -/

/-- `base36_to_int` reads back what `int_to_base36` writes with at most 13 digits, and no digit is a dash. -/
structure Signing where
  intToBase36 : Nat → String
  base36ToInt : String → Option Nat
  /-- `salted_hmac(key_salt, value).hexdigest()[::2]`. -/
  hashString : String → String → String
  base36ToInt_intToBase36 : ∀ n, n < 36 ^ 13 → base36ToInt (intToBase36 n) = some n
  dash_notMem_intToBase36 : ∀ n, '-' ∉ (intToBase36 n).toList
  dash_notMem_hashString : ∀ salt value, '-' ∉ (hashString salt value).toList
  hashString_injective : ∀ {salt salt' value value'}, hashString salt value = hashString salt' value' →
    salt = salt' ∧ value = value'

/-- An instant, as a number of microseconds from 2001. The years that a `datetime` can have end much earlier. -/
abbrev Instant := Fin (36 ^ 13 * 10 ^ 6)

/-- `_num_seconds`. -/
def numSeconds (now : Instant) : Nat := now.val / 10 ^ 6

theorem numSeconds_lt (now : Instant) : numSeconds now < 36 ^ 13 :=
  Nat.div_lt_of_lt_mul (lt_of_lt_of_eq now.isLt (Nat.mul_comm _ _))

/-! ## `TokenGenerator` -/

structure TokenGenerator where
  keySalt : String
  timeout : Nat

namespace TokenGenerator

variable (signing : Signing) (generator : TokenGenerator)

/-- `_make_token_with_timestamp`, once `_make_hash_value` has answered `value`. -/
def makeTokenWithTimestamp (timestamp : Nat) (value : String) : String :=
  signing.intToBase36 timestamp ++ "-" ++ signing.hashString generator.keySalt value

/-- `make_token`. -/
def makeToken (now : Instant) (makeHashValue : Nat → Option String) : Option String :=
  (makeHashValue (numSeconds now)).map (generator.makeTokenWithTimestamp signing (numSeconds now))

/-- The timestamp that `check_token` reads. -/
def timestamp (token : String) : Option Nat :=
  match token.toList.splitOn '-' with
  | [timestampB36, _] => signing.base36ToInt (String.ofList timestampB36)
  | _ => none

/-- The last comparison of `check_token`. -/
def isExpired (now : Instant) (timestamp : Nat) : Bool := timestamp + generator.timeout < numSeconds now

/-- `check_token`, for an organization and a user who exist. It answers nothing when `_make_hash_value` raises. -/
def checkToken (now : Instant) (makeHashValue : Nat → Option String) (token : String) : Option Bool :=
  if token = "" then some false
  else
    match timestamp signing token with
    | none => some false
    | some timestamp => (makeHashValue timestamp).map fun value =>
        generator.makeTokenWithTimestamp signing timestamp value = token && !generator.isExpired now timestamp

end TokenGenerator

/-! ## The generators -/

def companySignupTokenGenerator : TokenGenerator where
  keySalt := "itou.utils.tokens.SiaeSignupTokenGenerator"
  timeout := 2 * 7 * 24 * 3600

/-- `CompanySignupTokenGenerator._make_hash_value`, for `members = company.members.count()`. -/
def companySignupHashValue (company members : Nat) (timestamp : Nat) : Option String :=
  some (toString company ++ toString members ++ toString timestamp)

def adminRequestTokenGenerator : TokenGenerator where
  keySalt := "itou.utils.tokens.AdminRequestTokenGenerator"
  timeout := 2 * 7 * 24 * 3600

/-- `str` of a boolean. -/
def str (b : Bool) : String := if b then "True" else "False"

/-- The text that `AdminRequestTokenGenerator` signs. -/
def adminRequestValue (company user : Nat) (isAdmin : Bool) (timestamp : Nat) : String :=
  toString company ++ toString user ++ str isAdmin ++ toString timestamp

/-- `AdminRequestTokenGenerator._make_hash_value`. The manager of `company.memberships` hides inactive members, and `get`
raises for them as for strangers. -/
def adminRequestHashValue (db : Db) (company user : Nat) (timestamp : Nat) : Option String :=
  ((db.activeMemberships company).find? (·.user = user)).map fun membership =>
    adminRequestValue company user membership.isAdmin timestamp

/-! ## Asking for the administrator role -/

/-- The columns of `companies.Company` that the views read. `isActive` tells if `Company.objects.active()` has it. -/
structure Company where
  pk : Nat
  authEmail : String
  isActive : Bool
  deriving DecidableEq

/-- A member who became an administrator with a link. -/
structure Promotion where
  token : String
  company : Nat
  user : Nat
  deriving DecidableEq

/-- `links` and `promotions` record the tokens that were sent, and those that were of use. -/
structure State where
  db : Db
  companies : List Company
  now : Instant
  links : List String
  promotions : List Promotion

/-- What the views are given. `requester` is `request.user.pk`. -/
inductive Action where
  | requestAdminRole (requester company : Nat)
  | confirmAdminRole (requester company : Nat) (token : String)
  /-- `update_admin_role`. -/
  | updateAdminRole (requester user company : Nat) (admin : Bool)
  /-- `deactivate_member`. -/
  | deactivateMember (requester user company : Nat)
  /-- `MembersInlineFormSet`, where the support changes `is_admin`. -/
  | adminSetAdminRole (staff user company : Nat) (admin : Bool)
  /-- `MembersInlineFormSet`, where the support changes `is_active`. -/
  | adminDeactivate (staff user company : Nat)
  /-- `add_or_activate_membership`, for an invitation or by the support. -/
  | join (user company : Nat) (forceAdmin : Option Bool)
  /-- Time passes, up to an instant that is not before. -/
  | wait (until' : Instant)

/-- The microseconds of the rows. -/
def State.micros (s : State) : Int := s.now.val

section Views

variable (signing : Signing) (localdate : Int → Int)

/-- `request_admin_role`, up to the token of its email. -/
def State.requestAdminRole (s : State) (requester company : Nat) : Option String :=
  if (s.db.currentMembership company requester).isSome ∧
      (s.companies.any fun c => c.pk = company && c.authEmail ≠ "") ∧ s.db.activeAdminMemberships company = [] then
    adminRequestTokenGenerator.makeToken signing s.now (adminRequestHashValue s.db company requester)
  else none

/-- `company.check_admin_request_token`. -/
def State.checkAdminRequestToken (s : State) (company user : Nat) (token : String) : Option Bool :=
  adminRequestTokenGenerator.checkToken signing s.now (adminRequestHashValue s.db company user) token

/-- `confirm_admin_role`. -/
def State.confirmAdminRole (s : State) (requester company : Nat) (token : String) : Option Db :=
  if (s.companies.any fun c => c.pk = company && c.isActive) ∧
      s.checkAdminRequestToken signing company requester token = some true ∧
      (s.db.activeAdminMemberships company).all (·.user = requester) then
    ((s.db.activeMemberships company).find? (·.user = requester)).bind fun membership =>
      (s.db.requestUser requester).bind fun user => s.db.setAdminRole s.micros membership user true requester
  else none

/-- The membership that the support edits, which `include_inactive` finds, and its account. -/
def State.editedMember (s : State) (company user : Nat) : Option (Membership × Organizations.User) :=
  (s.db.membership? company user).bind fun membership =>
    (s.db.users.find? (·.pk = user)).map fun account => (membership, account)

def State.step (s : State) : Action → Option State
  | .requestAdminRole requester company =>
      (s.requestAdminRole signing requester company).map fun token => { s with links := s.links ++ [token] }
  | .confirmAdminRole requester company token =>
      if token ∈ s.links then
        (s.confirmAdminRole signing requester company token).map fun db =>
          { s with db, promotions := ⟨token, company, requester⟩ :: s.promotions }
      else none
  | .updateAdminRole requester user company admin =>
      (s.db.updateOrgAdminRole company s.micros requester user admin).map fun db => { s with db }
  | .deactivateMember requester user company =>
      (s.db.deactivateOrgMember localdate company s.micros requester user).map fun db => { s with db }
  | .adminSetAdminRole staff user company admin =>
      (s.editedMember company user).bind fun (membership, account) =>
        (s.db.setAdminRole s.micros membership account admin staff).map fun db => { s with db }
  | .adminDeactivate staff user company =>
      (s.editedMember company user).bind fun (membership, account) =>
        (s.db.deactivateMembership localdate s.micros company membership account staff).map fun db => { s with db }
  | .join user company forceAdmin =>
      (s.db.users.find? (·.pk = user)).bind fun account =>
        (s.db.addOrActivateMembership localdate s.micros company account forceAdmin).map fun db => { s with db }
  | .wait now => if s.now ≤ now then some { s with now } else none

end Views

/-! ## Promotions -/

/-- The member from whom the action may take the role. -/
def Action.demoted : Action → Option (Nat × Nat)
  | .updateAdminRole _ user company false => some (company, user)
  | .deactivateMember _ user company => some (company, user)
  | .adminSetAdminRole _ user company false => some (company, user)
  | .adminDeactivate _ user company => some (company, user)
  | .join user company _ => some (company, user)
  | _ => none

/-- The token is too old to be accepted. -/
def State.Expired (signing : Signing) (s : State) (token : String) : Prop :=
  ∀ timestamp, TokenGenerator.timestamp signing token = some timestamp →
    adminRequestTokenGenerator.isExpired s.now timestamp = true

instance (signing : Signing) (s : State) : DecidablePred (s.Expired signing) := fun token =>
  decidable_of_iff ((TokenGenerator.timestamp signing token).all fun timestamp =>
    adminRequestTokenGenerator.isExpired s.now timestamp) (Option.all_eq_true _ _)

/-- The numbers of two members are read as one only if the members are the same. -/
def Apart (db : Db) : Prop :=
  ∀ m ∈ db.memberships.rows, ∀ n ∈ db.memberships.rows,
    toString m.organization ++ toString m.user = toString n.organization ++ toString n.user →
      m.organization = n.organization ∧ m.user = n.user

instance : DecidablePred Apart := fun db => inferInstanceAs (Decidable (∀ m ∈ db.memberships.rows, ∀ n ∈ _, _))

/-- No two members are read as one, and the action does not take the role from a member who got it with a recent
link. -/
def State.Spares (signing : Signing) (s : State) (action : Action) : Prop :=
  Apart s.db ∧ ∀ p ∈ s.promotions, action.demoted = some (p.company, p.user) → s.Expired signing p.token

instance (signing : Signing) (s : State) : DecidablePred (s.Spares signing) := fun _ =>
  inferInstanceAs (Decidable (_ ∧ ∀ _ ∈ s.promotions, _))

end Itou.Tokens
