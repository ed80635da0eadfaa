import Itou.Companies.Models

/-!
# Whether a company may operate

`Company.is_active` and the grace period of a deactivated convention, as the properties of a company and as the query
sets of `CompanyQuerySet`. An instant is a number of microseconds, and a page reads the clock once.
-/

namespace Itou.Companies

/-- The column `kind`: a choice, or `COMPANY_KIND_RESERVED`. -/
inductive StoredKind where
  | choice (kind : CompanyKind)
  | reserved
  deriving DecidableEq

def StoredKind.mem (kind : StoredKind) (kinds : List CompanyKind) : Bool :=
  match kind with
  | choice k => k ∈ kinds
  | reserved => false

structure SiaeConvention where
  isActive : Bool
  deactivatedAt : Option Int
  deriving DecidableEq

/-- `timedelta(days=days)`. -/
def days (n : Int) : Int := n * 86400000000

/-- `DEACTIVATION_GRACE_PERIOD_IN_DAYS`. -/
def SiaeConvention.deactivationGracePeriodInDays : Int := 30

/-- What the properties read of a company. -/
structure Operator where
  siret : String
  kind : StoredKind
  source : CompanySource
  isSearchable : Bool
  convention : Option SiaeConvention
  deriving DecidableEq

namespace Operator

variable (now : Int) (c : Operator)

/-! ## The properties -/

/-- Reading an attribute of `None`, and adding to `None`. -/
inductive Exception where
  | attributeError
  | typeError
  deriving DecidableEq

def shouldHaveConvention : Bool := c.kind.mem CompanyKind.siaeKinds

/-- `None` is false. -/
def isActive : Bool :=
  if c.kind.mem [.ea, .eatt] then false
  else if !c.shouldHaveConvention then true
  else if c.source = .staffCreated then true
  else c.convention.any fun convention => convention.isActive

def gracePeriodEndDate : Except Exception Int :=
  if c.isActive then .ok (now + days 365)
  else if c.source = .userCreated && c.convention.isNone then .ok (now + days (-1))
  else match c.convention with
    | none => .error .attributeError
    | some convention => match convention.deactivatedAt with
      | none => .error .typeError
      | some gracePeriodStartDate => .ok (gracePeriodStartDate + days SiaeConvention.deactivationGracePeriodInDays)

def gracePeriodHasExpired : Except Exception Bool :=
  if c.isActive then .ok false
  else (c.gracePeriodEndDate now).map fun endDate => decide (endDate < now)

/-- `company.is_active or not company.grace_period_has_expired`. -/
def mayOperate : Except Exception Bool :=
  if c.isActive then .ok true else (c.gracePeriodHasExpired now).map Bool.not

/-! ## The query sets -/

/-- The rows of `Company.objects`. -/
def inObjects : Bool := c.siret ≠ poleEmploiSiret && !c.kind.mem [.ea, .eatt]

def activeLookup : Bool :=
  (c.kind = .choice .geiq || c.kind = .reserved) ||
    (c.kind = .choice .opcs && c.isSearchable) ||
    decide (c.source = .staffCreated) ||
    c.convention.any fun convention => convention.isActive

def hasConventionInGracePeriod : Bool :=
  c.convention.any fun convention => convention.deactivatedAt.any fun deactivatedAt =>
    decide (now - days SiaeConvention.deactivationGracePeriodInDays ≤ deactivatedAt)

def active : Bool := c.inObjects && c.activeLookup

def activeOrInGracePeriod : Bool := c.inObjects && (c.activeLookup || c.hasConventionInGracePeriod now)

/-! ## When both agree -/

/-- The properties and the query sets give the same answers, without an exception. -/
def Agrees : Prop := c.mayOperate now = .ok (c.activeOrInGracePeriod now) ∧ c.isActive = c.active

/-- The convention is active. -/
def HasActiveConvention : Prop := ∃ convention ∈ c.convention, convention.isActive = true

/-- The end of the grace period is known. -/
def HasGracePeriod : Prop :=
  (c.convention = none ∧ c.source = .userCreated) ∨ ∃ convention ∈ c.convention, convention.deactivatedAt ≠ none

/-- It is known and is past. -/
def GracePeriodIsOver : Prop :=
  (c.convention = none ∧ c.source = .userCreated) ∨
    ∃ convention ∈ c.convention, ∃ deactivatedAt ∈ convention.deactivatedAt,
      deactivatedAt + days SiaeConvention.deactivationGracePeriodInDays < now

/-- The companies for which the two agree, kind by kind. -/
def Unambiguous : Prop :=
  match c.kind with
  | .reserved => c.siret ≠ poleEmploiSiret
  | .choice .geiq => c.siret ≠ poleEmploiSiret
  | .choice .opcs => c.siret ≠ poleEmploiSiret ∧
      (c.isSearchable = true ∨ c.source = .staffCreated ∨ c.HasActiveConvention)
  | .choice .ea => c.GracePeriodIsOver now
  | .choice .eatt => c.GracePeriodIsOver now
  | .choice _ =>
      if c.siret = poleEmploiSiret then
        c.source ≠ .staffCreated ∧ ¬ c.HasActiveConvention ∧ c.GracePeriodIsOver now
      else c.source = .staffCreated ∨ c.HasActiveConvention ∨ c.HasGracePeriod

end Operator

end Itou.Companies
