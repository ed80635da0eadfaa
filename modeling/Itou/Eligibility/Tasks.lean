import Itou.Lib.Json

/-!
# The certification of a criterion

One run of `_async_certify_criterion`, with API Particulier or with France Travail. What the providers answer is given, up
to its bytes: a body may not be decoded, or may not be JSON. The built-in functions that read a number or a date are
parameters.
-/

namespace Itou.Eligibility.Tasks

open Itou.Lib

/-! ## Answers -/

/-- `response.json()` raises `JSONDecodeError` on a text that is no JSON, and another exception on bytes that it cannot
decode. -/
inductive Body where
  | undecodable
  | notJson
  | json (value : Json)

/-- `response.json()`, or `{}` in place of a `JSONDecodeError`. `none` when it raises. -/
def Body.jsonOrEmpty? : Body → Option Json
  | undecodable => none
  | notJson => some (.object [])
  | json value => some value

structure Response where
  statusCode : Nat
  /-- The header `Retry-After`. -/
  retryAfter : Option String
  body : Body

def Response.isSuccess (r : Response) : Bool := 200 ≤ r.statusCode && r.statusCode < 300

/-- What a request gets: an `httpx.RequestError`, another exception (a header that cannot be sent), or a response. -/
inductive Exchange where
  | requestError
  | otherError
  | response (r : Response)

/-! ## The criterion -/

/-- `InclusiveDateRange`. -/
inductive Period where
  | empty
  | range (lower : Int) (upper : Option Int)
  deriving DecidableEq

/-- A row of a selected administrative criterion. -/
structure Criterion where
  dataReturnedByApi : Json
  certifiedAt : Option Int
  certificationPeriod : Option Period
  lastCertificationAttemptAt : Option Int

/-- `IdentityCertificationAuthorities`. -/
inductive Certifier where
  | apiParticulier
  | apiFtRechercherUsager
  deriving DecidableEq

/-- The row, and the `IdentityCertification` rows of the job seeker, with their `certified_at`. -/
structure Db where
  criterion : Criterion
  certifications : List (Certifier × Int)

/-- `upsert_certifications`, of one. -/
def upsertCertification (certifications : List (Certifier × Int)) (certifier : Certifier) (at' : Int) :
    List (Certifier × Int) :=
  if certifications.any fun c => c.1 = certifier then
    certifications.map fun c => if c.1 = certifier then (certifier, at') else c
  else certifications ++ [(certifier, at')]

/-- The columns of the job seeker and of its profile that say if the provider can be asked. -/
structure JobSeeker where
  firstName : String
  lastName : String
  title : String
  birthdate : Option Int
  birthCountry : Option Nat
  birthPlace : Option Nat
  nir : String
  poleEmploiId : String

/-- The exceptions that `_async_certify_criterion` tells apart. -/
inductive Raised where
  | httpError
  | poleEmploiApiException
  | jsonDecodeError
  | retryTask (delay : Int)
  | other
  deriving DecidableEq

/-- The exceptions that are raised again, for a retry. -/
def Raised.retry : Raised → Bool
  | httpError | poleEmploiApiException | jsonDecodeError | retryTask _ => true
  | other => false

variable (int fromisoformat : String → Option Int)

/-! ## API Particulier -/

/-- What `certify_criteria` raises. -/
inductive ClientError where
  | httpStatusError (r : Response)
  | raised (e : Raised)

/-- `_request`. -/
def request : Exchange → Except ClientError Json
  | .requestError => .error (.raised .httpError)
  | .otherError => .error (.raised .other)
  | .response r =>
      if !r.isSuccess then .error (.httpStatusError r)
      else
        match r.body with
        | .undecodable => .error (.raised .other)
        | .notJson => .error (.raised .jsonDecodeError)
        | .json value => .ok value

/-- The `certification_period` of `certify_criteria`. `none` when it raises. -/
def subsidyPeriod (response : Json) : Option Period := do
  let data ← response.get? "data"
  let isBeneficiary ← data.get? "est_beneficiaire"
  if isBeneficiary.isTrue then
    let start ← data.get? "date_debut_droit"
    let text ← start.text?
    let day ← fromisoformat text
    return .range day none
  else return .empty

/-- `UNKNOWN_RESPONSE_FROM_PROVIDER_CNAV_ERROR_CODE` and `UNKNOWN_RESPONSE_FROM_PROVIDER_SECURITE_SOCIALE_ERROR_CODE`. -/
def unknownResponseCodes : List String := ["37999", "36999"]

/-- `value[0]["code"]`, of a value of length 1. `none` when it raises. -/
def firstCode : Json → Option Json
  | .array (item :: _) => item.get? "code"
  | .array [] | .null | .bool _ | .number _ | .string _ | .object _ => none

/-- The condition of the status 502. `none` when it raises. -/
def isUnknownResponse (data : Json) : Option Bool := do
  let errors ← data.getOrEmptyList "errors"
  let length ← errors.length
  if length = 1 then
    let code ← firstCode errors
    code.isOneOf unknownResponseCodes
  else return false

/-- `has_required_info`. -/
def hasRequiredInfo (jobSeeker : JobSeeker) (isBornInFrance : Bool) : Bool :=
  jobSeeker.firstName ≠ "" && jobSeeker.lastName ≠ "" && jobSeeker.title ≠ "" && jobSeeker.birthdate.isSome &&
    jobSeeker.birthCountry.isSome && (!isBornInFrance || jobSeeker.birthPlace.isSome)

/-- The branches of `except httpx.HTTPStatusError`: the criterion to save, and `user_found`. -/
def afterStatus (criterion : Criterion) (now : Int) (r : Response) : Except Raised (Criterion × Bool) :=
  match r.body.jsonOrEmpty? with
  | none => .error .other
  | some data =>
      let criterion := { criterion with dataReturnedByApi := data }
      if r.statusCode = 404 then
        match data.contains "errors" with
        | none => .error .other
        | some false => .error .httpError
        | some true => .ok ({ criterion with certificationPeriod := some .empty, certifiedAt := some now }, true)
      else if r.statusCode = 422 then
        match data.contains "errors" with
        | none => .error .other
        | some false => .error .httpError
        | some true => .ok ({ criterion with certifiedAt := some now }, false)
      else if r.statusCode = 409 then .error (.retryTask 60)
      else if r.statusCode = 429 then
        match r.retryAfter.bind int with
        | none => .error .other
        | some delay => .error (.retryTask delay)
      else if r.statusCode = 502 then
        match isUnknownResponse data with
        | none => .error .other
        | some true => .ok (criterion, false)
        | some false => .error .httpError
      else .error .httpError

/-- `certify_criterion_with_api_particulier`, from the answer on. -/
def certifyCriterionWithApiParticulier (criterion : Criterion) (now : Int) (exchange : Exchange) :
    Except Raised (Criterion × Bool) :=
  match request exchange with
  | .error (.raised e) => .error e
  | .error (.httpStatusError r) => afterStatus int criterion now r
  | .ok response =>
      match subsidyPeriod fromisoformat response with
      | none => .error .other
      | some period => .ok ({ criterion with
          certifiedAt := some now, dataReturnedByApi := response, certificationPeriod := some period }, true)

/-! ## France Travail -/

/-- What the client raises. -/
inductive FranceTravailError where
  | raised (e : Raised)
  | rateLimit (retryAfter : String)
  /-- `UserDoesNotExist`, `MultipleUsersReturned` and the other `PoleEmploiAPIBadResponse`. -/
  | badResponse (data : Json)
  | identityNotCertified (data : Json)

/-- `_refresh_token`, in the `try` of `_request`. -/
def refreshToken : Exchange → Except FranceTravailError Unit
  | .requestError => .error (.raised .poleEmploiApiException)
  | .otherError => .error (.raised .other)
  | .response r =>
      if !r.isSuccess then .error (.raised .httpError)
      else
        match r.body with
        | .undecodable => .error (.raised .other)
        | .notJson => .error (.raised .jsonDecodeError)
        | .json data =>
            match data.get? "token_type", data.get? "access_token", data.get? "expires_in" with
            | some _, some _, some (.number _) => .ok ()
            | some _, some _, some (.bool _) => .ok ()
            | _, _, _ => .error (.raised .other)

/-- `_request`, from the token on. A `204` gives `None`. -/
def usagerRequest : Exchange → Except FranceTravailError (Option Json)
  | .requestError => .error (.raised .poleEmploiApiException)
  | .otherError => .error (.raised .other)
  | .response r =>
      if r.statusCode = 204 then .ok none
      else if r.statusCode = 429 then .error (.rateLimit (r.retryAfter.getD "60"))
      else if r.statusCode = 200 ∨ r.statusCode = 206 then
        match r.body with
        | .undecodable => .error (.raised .other)
        | .notJson => .error (.raised .jsonDecodeError)
        | .json data => .ok (some data)
      else
        match r.body with
        | .undecodable => .error (.raised .other)
        | .notJson | .json _ => .error (.raised .poleEmploiApiException)

/-- `_request`. There is no exchange for a token that is in the cache. -/
def franceTravailRequest (token : Option Exchange) (exchange : Exchange) :
    Except FranceTravailError (Option Json) := do
  match token with
  | none => usagerRequest exchange
  | some token =>
      refreshToken token
      usagerRequest exchange

/-- What `rechercher_usager` makes of the data. -/
def jetonUsager (data : Json) : Except FranceTravailError Json :=
  match data.get? "codeRetour" with
  | none => .error (.raised .other)
  | some code =>
      if !code.isText "S001" then .error (.badResponse data)
      else
        match data.get? "topIdentiteCertifiee", data.get? "jetonUsager" with
        | none, _ => .error (.raised .other)
        | some top, jeton =>
            if !top.isText "O" then .error (.identityNotCertified data)
            else jeton.elim (.error (.raised .other)) .ok

/-- `datetime.date(9999, 12, 31)`. -/
def lastDay : Int := 2932896

/-- The `certification_period` of `rqth`. `none` when it raises. -/
def rqthPeriod (data : Json) : Option Period := do
  let isValid ← data.get? "topValiditeRQTH"
  if isValid.isTrue then
    let start ← data.get? "dateDebutRqth"
    let startAt ← start.text?.bind fromisoformat
    match ← data.get? "dateFinRqth" with
    | .null => return .range startAt none
    | end' =>
        let endAt ← end'.text?.bind fromisoformat
        return .range startAt (if endAt = lastDay then none else some endAt)
  else return .empty

/-- What the two requests of the task get, with those for a token. -/
structure FranceTravailAnswer where
  usagerToken : Option Exchange
  usager : Exchange
  rqthToken : Option Exchange
  rqth : Exchange

/-- `rechercher_usager`, then `rqth`. -/
def rechercherRqth (answer : FranceTravailAnswer) : Except FranceTravailError (Json × Period) := do
  match ← franceTravailRequest answer.usagerToken answer.usager with
  | none => throw (.raised .other)
  | some data =>
      let _ ← jetonUsager data
      match ← franceTravailRequest answer.rqthToken answer.rqth with
      | none => throw (.raised .other)
      | some data =>
          match rqthPeriod fromisoformat data with
          | none => throw (.raised .other)
          | some period => return (data, period)

/-- `certify_criterion_with_api_france_travail`, from the answers on. -/
def certifyCriterionWithApiFranceTravail (criterion : Criterion) (now : Int) (answer : FranceTravailAnswer) :
    Except Raised (Criterion × Bool) :=
  match rechercherRqth fromisoformat answer with
  | .error (.badResponse data) => .ok ({ criterion with dataReturnedByApi := data }, false)
  | .error (.identityNotCertified data) => .ok ({ criterion with
      certifiedAt := some now, dataReturnedByApi := data, certificationPeriod := some .empty }, false)
  | .error (.rateLimit retryAfter) => .error (.retryTask ((int retryAfter).getD 60))
  | .error (.raised e) => .error e
  | .ok (data, period) => .ok ({ criterion with
      certifiedAt := some now, dataReturnedByApi := data, certificationPeriod := some period }, true)

/-! ## The task -/

/-- What the provider that is asked answers. -/
inductive Answer where
  | apiParticulier (exchange : Exchange)
  | apiFranceTravail (answer : FranceTravailAnswer)

def Answer.certifier : Answer → Certifier
  | apiParticulier _ => .apiParticulier
  | apiFranceTravail _ => .apiFtRechercherUsager

/-- The checks before the provider is asked. -/
def canAsk (jobSeeker : JobSeeker) (isConfigured isBornInFrance : Bool) : Answer → Bool
  | .apiParticulier _ => isConfigured && hasRequiredInfo jobSeeker isBornInFrance
  | .apiFranceTravail _ =>
      isConfigured && (jobSeeker.poleEmploiId.length = 11 || (jobSeeker.birthdate.isSome && jobSeeker.nir ≠ ""))

/-- What the provider makes of the criterion. -/
def certify (criterion : Criterion) (now : Int) : Answer → Except Raised (Criterion × Bool)
  | .apiParticulier exchange => certifyCriterionWithApiParticulier int fromisoformat criterion now exchange
  | .apiFranceTravail answer => certifyCriterionWithApiFranceTravail int fromisoformat criterion now answer

/-- `_async_certify_criterion`: the rows that are committed, and what was captured. `accepts` tells if the database takes
the criterion and the certification: otherwise the inner transaction is undone. -/
def asyncCertifyCriterion (jobSeeker : JobSeeker) (isConfigured isBornInFrance : Bool) (accepts : Criterion → Bool)
    (attemptAt now : Int) (db : Db) (answer : Answer) : Db × Option Raised :=
  if !canAsk jobSeeker isConfigured isBornInFrance answer then (db, none)
  else
    let criterion := { db.criterion with lastCertificationAttemptAt := some attemptAt }
    let db := { db with criterion }
    match certify int fromisoformat criterion now answer with
    | .error e => (db, some e)
    | .ok (criterion, userFound) =>
        if !accepts criterion then (db, some .other)
        else ({ criterion, certifications :=
          if userFound then upsertCertification db.certifications answer.certifier now else db.certifications }, none)

/-! ## What an answer says -/

/-- Why an attempt failed. -/
inductive Failure where
  | connection
  /-- The provider refused a request, which may be that of a token. -/
  | refused (authenticating : Bool) (r : Response)
  | unusable

/-- The provider limits the rate of the requests, or is unavailable. A `409` stands for another request in progress. -/
def Response.isTemporary (r : Response) : Bool :=
  r.statusCode = 409 || r.statusCode = 429 || (500 ≤ r.statusCode && r.statusCode < 600)

def Failure.isTemporary : Failure → Bool
  | connection => true
  | refused _ r => r.isTemporary
  | unusable => false

/-- What the answer says of the criterion: a final answer, with a period when the provider decides and with whether it
recognises the job seeker; no answer, now or later; or nothing. -/
inductive Verdict where
  | final (data : Json) (period : Option Period) (recognised : Bool)
  | undecidable (data : Json)
  | failed (failure : Failure)

/-- What a refusal of API Particulier says. -/
def refusalVerdict (r : Response) : Verdict :=
  let data := r.body.jsonOrEmpty?
  if r.statusCode = 404 ∧ data.bind (JsonValue.contains "errors") = some true then
    .final (data.getD (.object [])) (some .empty) true
  else if r.statusCode = 422 ∧ data.bind (JsonValue.contains "errors") = some true then
    .final (data.getD (.object [])) none false
  else if r.statusCode = 502 ∧ data.bind isUnknownResponse = some true then
    .undecidable (data.getD (.object []))
  else .failed (.refused false r)

/-- What an answer of API Particulier says. -/
def apiParticulierVerdict : Exchange → Verdict
  | .requestError => .failed .connection
  | .otherError => .failed .unusable
  | .response r =>
      if !r.isSuccess then refusalVerdict r
      else
        match r.body with
        | .undecodable | .notJson => .failed .unusable
        | .json data =>
            match subsidyPeriod fromisoformat data with
            | some period => .final data (some period) true
            | none => .failed .unusable

/-- How a request to France Travail fails, or the JSON that it gets. -/
def usagerData : Exchange → Except Failure Json
  | .requestError => .error .connection
  | .otherError => .error .unusable
  | .response r =>
      if r.statusCode = 200 ∨ r.statusCode = 206 then
        match r.body with
        | .undecodable | .notJson => .error .unusable
        | .json data => .ok data
      else if r.statusCode = 204 then .error .unusable
      else .error (.refused false r)

/-- How the request of a token fails, when it does. -/
def tokenFailure (exchange : Exchange) : Option Failure :=
  match exchange, refreshToken exchange with
  | _, .ok _ => none
  | .requestError, .error _ => some .connection
  | .otherError, .error _ => some .unusable
  | .response r, .error _ => some (if r.isSuccess then .unusable else .refused true r)

/-- How a request fails, with that of its token, or the JSON that it gets. -/
def franceTravailData (token : Option Exchange) (exchange : Exchange) : Except Failure Json :=
  match token.bind tokenFailure with
  | some failure => .error failure
  | none => usagerData exchange

/-- What the answers of France Travail say. -/
def apiFranceTravailVerdict (answer : FranceTravailAnswer) : Verdict :=
  match franceTravailData answer.usagerToken answer.usager with
  | .error failure => .failed failure
  | .ok data =>
      match jetonUsager data with
      | .error (.badResponse data) => .undecidable data
      | .error (.identityNotCertified data) => .final data (some .empty) false
      | .error (.raised _) | .error (.rateLimit _) => .failed .unusable
      | .ok _ =>
          match franceTravailData answer.rqthToken answer.rqth with
          | .error failure => .failed failure
          | .ok data =>
              match rqthPeriod fromisoformat data with
              | some period => .final data (some period) true
              | none => .failed .unusable

def verdict : Answer → Verdict
  | .apiParticulier exchange => apiParticulierVerdict fromisoformat exchange
  | .apiFranceTravail answer => apiFranceTravailVerdict fromisoformat answer

/-! ## What is asked of a run -/

/-- The row once the attempt is noted. -/
def Db.attempted (db : Db) (attemptAt : Int) : Db :=
  { db with criterion := { db.criterion with lastCertificationAttemptAt := some attemptAt } }

/-- The row of a final answer. The period changes when there is one. -/
def Criterion.decided (criterion : Criterion) (now : Int) (data : Json) (period : Option Period) : Criterion :=
  { criterion with
    certifiedAt := some now
    dataReturnedByApi := data
    certificationPeriod := period.or criterion.certificationPeriod }

/-- A run survives an answer: it saves the whole of a final one, keeps the data alone of one that will never decide, and
leaves the row of a failed attempt as it was, to be retried when the failure is temporary. A row that the database
refuses makes a failed attempt. -/
def Survives (accepts : Criterion → Bool) (certifier : Certifier) (attemptAt now : Int) (db : Db) (after : Db)
    (raised : Option Raised) : Verdict → Prop
  | .final data period recognised =>
      let criterion := (db.attempted attemptAt).criterion.decided now data period
      if accepts criterion then
        after = ⟨criterion, if recognised then upsertCertification db.certifications certifier now
          else db.certifications⟩ ∧ raised = none
      else after = db.attempted attemptAt
  | .undecidable data =>
      let criterion := { (db.attempted attemptAt).criterion with dataReturnedByApi := data }
      if accepts criterion then after = ⟨criterion, db.certifications⟩ ∧ raised = none
      else after = db.attempted attemptAt
  | .failed failure =>
      after = db.attempted attemptAt ∧ (failure.isTemporary → raised.any Raised.retry)

/-- The `errors` of a body can be read: an object where they are missing, or have a length, and a code when they are
one. -/
def hasReadableErrors (body : Json) : Bool :=
  match body.getOrEmptyList "errors" with
  | none => false
  | some (.array [item]) => ((item.get? "code").bind (JsonValue.isOneOf [])).isSome
  | some (.array _) => true
  | some (.string s) => s.length ≠ 1
  | some (.object fields) => fields.length ≠ 1
  | some .null | some (.bool _) | some (.number _) => false

/-- Nothing else is raised while a refusal is handled. With API Particulier, the body is read first, a `429` has a delay
that `int` reads, and a `502` has errors that can be read. With France Travail, the body of a `429` is not read, nor that
of a refused token. -/
def Handles (certifier : Certifier) : Failure → Bool
  | .connection | .unusable => true
  | .refused authenticating r =>
      match certifier with
      | .apiParticulier =>
          match r.body.jsonOrEmpty? with
          | none => false
          | some data =>
              (r.statusCode ≠ 429 || (r.retryAfter.bind int).isSome) && (r.statusCode ≠ 502 || hasReadableErrors data)
      | .apiFtRechercherUsager => authenticating || r.statusCode = 429 || r.body.jsonOrEmpty?.isSome

/-- No temporary failure trips the run. -/
def HandlesFailures (answer : Answer) : Prop :=
  ∀ failure, verdict fromisoformat answer = .failed failure → failure.isTemporary → Handles int answer.certifier failure

end Itou.Eligibility.Tasks
