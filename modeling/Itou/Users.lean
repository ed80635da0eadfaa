/-!
# Users and their organizations

What the other modules read of a user and of the organizations.
-/

namespace Itou

/-- `UserKind`. -/
inductive UserKind where
  | jobSeeker
  | professional
  | itouStaff
  deriving DecidableEq

structure User where
  pk : Nat
  kind : UserKind
  deriving DecidableEq

def User.isJobSeeker (u : User) : Bool := u.kind = .jobSeeker

def User.isProfessional (u : User) : Bool := u.kind = .professional

/-- `CompanyKind`. -/
inductive CompanyKind where
  | aci
  | ai
  | ea
  | eatt
  | ei
  | eiti
  | etti
  | geiq
  | opcs
  deriving DecidableEq

/-- `InstitutionKind`. -/
inductive InstitutionKind where
  | ddetsGeiq
  | ddetsIae
  | ddetsLog
  | dreetsGeiq
  | dreetsIae
  | drihl
  | dgefpGeiq
  | dgefpIae
  | dihal
  | iaeNetwork
  | convergence
  | ffgeiq
  | other
  deriving DecidableEq

/-- `CompanyKind.siae_kinds`. -/
def CompanyKind.siaeKinds : List CompanyKind := [.ai, .aci, .ei, .eiti, .etti]

structure Company where
  pk : Nat
  kind : CompanyKind
  deriving DecidableEq

def Company.isSubjectToIaeRules (c : Company) : Bool := c.kind ∈ CompanyKind.siaeKinds

/-- `CompanySource`. -/
inductive CompanySource where
  | asp
  | geiq
  | eaEatt
  | userCreated
  | staffCreated
  deriving DecidableEq

/-- `POLE_EMPLOI_SIRET`. -/
def poleEmploiSiret : String := "13000548100010"

/-- `CompanyManager` has the companies with this SIRET and this kind. -/
def CompanyManager.has (siret : String) (kind : CompanyKind) : Bool :=
  siret ≠ poleEmploiSiret && !decide (kind ∈ [CompanyKind.ea, CompanyKind.eatt])

structure PrescriberOrganization where
  pk : Nat
  isAuthorized : Bool
  deriving DecidableEq

/-- The organization that a professional is logged in for. -/
inductive Organization where
  | prescriber (organization : PrescriberOrganization)
  | company (company : Company)
  | institution (pk : Nat)
  deriving DecidableEq

/-- No GEIQ is an SIAE. -/
theorem Company.not_isSubjectToIaeRules_of_geiq {c : Company} (h : c.kind = .geiq) :
    c.isSubjectToIaeRules = false := by
  simp [Company.isSubjectToIaeRules, h, CompanyKind.siaeKinds]

end Itou
