import Itou.Eligibility.Tasks

/-!
# What the providers make of the criterion

Each request fails or answers as its verdict says, and the run stores what the verdict decides.
-/

namespace Itou.Eligibility.Tasks

open Itou.Lib

variable (int fromisoformat : String → Option Int)

/-! ## What the providers make of the criterion -/

/-- The code of a provider makes of the criterion what the answer says. -/
def Matches (certifier : Certifier) (criterion : Criterion) (now : Int) (result : Except Raised (Criterion × Bool)) :
    Verdict → Prop
  | .final data period recognised => result = .ok (criterion.decided now data period, recognised)
  | .undecidable data => result = .ok ({ criterion with dataReturnedByApi := data }, false)
  | .failed failure =>
      ∃ e, result = .error e ∧ (failure.isTemporary → e.retry = Handles int certifier failure)

theorem isOneOf_isSome (texts texts' : List String) (value : Json) :
    (value.isOneOf texts).isSome = (value.isOneOf texts').isSome := by
  cases value <;> rfl

/-- The condition of the status 502 can be evaluated when the errors can be read. -/
theorem isUnknownResponse_isSome (data : Json) : (isUnknownResponse data).isSome = hasReadableErrors data := by
  unfold isUnknownResponse hasReadableErrors
  cases data.getOrEmptyList "errors" with
  | none => rfl
  | some errors =>
      cases errors with
      | null | bool _ | number _ => rfl
      | string s => by_cases h : s.length = 1 <;> simp [JsonValue.length, firstCode, h]
      | object fields => by_cases h : fields.length = 1 <;> simp [JsonValue.length, firstCode, h]
      | array items =>
          match items with
          | [] => rfl
          | [item] =>
              cases h : item.get? "code" with
              | none => simp [JsonValue.length, firstCode, h]
              | some code => simpa [JsonValue.length, firstCode, h] using isOneOf_isSome _ _ code
          | _ :: _ :: _ => simp [JsonValue.length]

/-- A refusal of API Particulier. -/
theorem afterStatus_matches (criterion : Criterion) (now : Int) (r : Response) :
    Matches int .apiParticulier criterion now (afterStatus int criterion now r) (refusalVerdict r) := by
  unfold afterStatus refusalVerdict
  cases hbody : r.body.jsonOrEmpty? with
  | none => simp [Matches, Handles, hbody, Raised.retry]
  | some data =>
      by_cases h404 : r.statusCode = 404
      · rcases h : data.contains "errors" with _ | _ | _ <;>
          simp [Matches, h404, h, Criterion.decided, Failure.isTemporary, Response.isTemporary]
      by_cases h422 : r.statusCode = 422
      · rcases h : data.contains "errors" with _ | _ | _ <;>
          simp [Matches, h422, h, Criterion.decided, Failure.isTemporary, Response.isTemporary]
      by_cases h409 : r.statusCode = 409
      · simp [Matches, Handles, hbody, h409, Raised.retry]
      by_cases h429 : r.statusCode = 429
      · cases h : r.retryAfter.bind int <;> simp [Matches, Handles, hbody, h429, h, Raised.retry]
      by_cases h502 : r.statusCode = 502
      · have hread := isUnknownResponse_isSome data
        rcases h : isUnknownResponse data with _ | _ | _ <;> rw [h] at hread <;>
          simp [Matches, Handles, hbody, h502, h, ← hread, Raised.retry]
      · simp [Matches, Handles, hbody, h404, h422, h409, h429, h502, Raised.retry]

theorem apiParticulier_matches (criterion : Criterion) (now : Int) (exchange : Exchange) :
    Matches int .apiParticulier criterion now
      (certifyCriterionWithApiParticulier int fromisoformat criterion now exchange)
      (apiParticulierVerdict fromisoformat exchange) := by
  cases exchange with
  | requestError => exact ⟨_, rfl, fun _ => rfl⟩
  | otherError => exact ⟨_, rfl, nofun⟩
  | response r =>
      unfold certifyCriterionWithApiParticulier apiParticulierVerdict request
      by_cases hsuccess : r.isSuccess
      · simp only [hsuccess, Bool.not_true, Bool.false_eq_true, if_false]
        cases r.body with
        | undecodable | notJson => exact ⟨_, rfl, nofun⟩
        | json data =>
            simp only
            cases subsidyPeriod fromisoformat data with
            | none => exact ⟨_, rfl, nofun⟩
            | some period => rfl
      · simpa only [hsuccess, Bool.not_false, if_true] using afterStatus_matches int criterion now r

/-- What a request to France Travail returns or raises when it fails so. -/
def Fails (failure : Failure) : Except FranceTravailError (Option Json) → Prop
  | .ok none => failure.isTemporary = false
  | .error (.raised e) => failure.isTemporary → e.retry = Handles int .apiFtRechercherUsager failure
  | .error (.rateLimit _) => failure.isTemporary → Handles int .apiFtRechercherUsager failure
  | .ok (some _) | .error (.badResponse _) | .error (.identityNotCertified _) => False

/-- What a request does, whose data are these. -/
def Requests (result : Except FranceTravailError (Option Json)) : Except Failure Json → Prop
  | .ok data => result = .ok (some data)
  | .error failure => Fails int failure result

theorem usagerRequest_spec (exchange : Exchange) : Requests int (usagerRequest exchange) (usagerData exchange) := by
  cases exchange with
  | requestError => exact fun _ => rfl
  | otherError => exact nofun
  | response r =>
      unfold usagerRequest usagerData
      by_cases h204 : r.statusCode = 204
      · simp [h204, Requests, Fails, Failure.isTemporary]
      by_cases h429 : r.statusCode = 429
      · simp [h429, Requests, Fails, Handles]
      by_cases hok : r.statusCode = 200 ∨ r.statusCode = 206
      · simp only [h204, h429, hok, if_true, if_false]
        cases r.body with
        | undecodable | notJson => exact nofun
        | json data => rfl
      · simp only [h204, h429, hok, if_false]
        cases hbody : r.body with
        | undecodable | notJson | json _ =>
            simp [Requests, Fails, Handles, h429, hbody, Raised.retry, Body.jsonOrEmpty?]

/-- The request of a token fails with an exception, that is retried when it is temporary. -/
theorem refreshToken_spec {exchange : Exchange} {failure : Failure} (h : tokenFailure exchange = some failure) :
    ∃ e, refreshToken exchange = .error (.raised e) ∧
      (failure.isTemporary → e.retry = Handles int .apiFtRechercherUsager failure) := by
  cases exchange with
  | requestError =>
      cases h
      exact ⟨_, rfl, fun _ => rfl⟩
  | otherError =>
      cases h
      exact ⟨_, rfl, nofun⟩
  | response r =>
      by_cases hsuccess : r.isSuccess
      · have hunusable : ∀ e, refreshToken (.response r) = .error e → failure = .unusable := fun e he => by
          simpa [tokenFailure, he, hsuccess, eq_comm] using h
        rcases he : refreshToken (.response r) with e | _
        · obtain ⟨e', rfl⟩ : ∃ e', e = .raised e' := by
            simp only [refreshToken, hsuccess, Bool.not_true, Bool.false_eq_true, if_false] at he
            split at he
            · exact ⟨_, (Except.error.inj he).symm⟩
            · exact ⟨_, (Except.error.inj he).symm⟩
            · split at he
              all_goals first | exact ⟨_, (Except.error.inj he).symm⟩ | cases he
          cases hunusable _ he
          exact ⟨e', rfl, nofun⟩
        · simp [tokenFailure, he] at h
      · have he : refreshToken (.response r) = .error (.raised .httpError) := by
          simp [refreshToken, hsuccess]
        have : failure = .refused true r := by simpa [tokenFailure, he, hsuccess, eq_comm] using h
        subst this
        exact ⟨_, he, fun _ => rfl⟩

theorem franceTravailRequest_spec (token : Option Exchange) (exchange : Exchange) :
    Requests int (franceTravailRequest token exchange) (franceTravailData token exchange) := by
  cases token with
  | none => exact usagerRequest_spec int exchange
  | some token =>
      simp only [franceTravailRequest, franceTravailData, Option.bind_some]
      cases h : tokenFailure token with
      | some failure =>
          obtain ⟨e, he, hretry⟩ := refreshToken_spec int h
          rw [he]
          exact hretry
      | none =>
          have : refreshToken token = .ok () := by
            unfold tokenFailure at h
            rcases he : refreshToken token with e | _
            · rw [he] at h
              cases token <;> simp at h
            · rfl
          rw [this]
          exact usagerRequest_spec int exchange

/-- `rechercher_usager` raises none of the exceptions of a request. -/
theorem jetonUsager_error {data : Json} {e : FranceTravailError} (h : jetonUsager data = .error e) :
    (∃ data, e = .badResponse data) ∨ (∃ data, e = .identityNotCertified data) ∨ e = .raised .other := by
  unfold jetonUsager at h
  split at h
  · exact .inr (.inr (Except.error.inj h).symm)
  split at h
  · exact .inl ⟨_, (Except.error.inj h).symm⟩
  split at h
  · exact .inr (.inr (Except.error.inj h).symm)
  split at h
  · exact .inr (.inl ⟨_, (Except.error.inj h).symm⟩)
  · cases hjeton : data.get? "jetonUsager" with
    | none =>
        rw [hjeton] at h
        exact .inr (.inr (Except.error.inj h).symm)
    | some jeton =>
        rw [hjeton] at h
        exact nomatch h

/-- The run of `rechercher_usager` and `rqth` stops at a request that fails. -/
theorem certify_of_fails {criterion : Criterion} {now : Int} {answer : FranceTravailAnswer} {failure : Failure}
    {result : Except FranceTravailError (Option Json)} (hfails : Fails int failure result)
    (herror : ∀ e, result = .error e → rechercherRqth fromisoformat answer = .error e)
    (hnone : result = .ok none → rechercherRqth fromisoformat answer = .error (.raised .other)) :
    Matches int .apiFtRechercherUsager criterion now
      (certifyCriterionWithApiFranceTravail int fromisoformat criterion now answer) (.failed failure) := by
  unfold certifyCriterionWithApiFranceTravail
  match result, hfails with
  | .ok none, hfails =>
      rw [hnone rfl]
      exact ⟨_, rfl, fun ht => by simp [show failure.isTemporary = false from hfails] at ht⟩
  | .error (.raised e), hfails =>
      rw [herror _ rfl]
      exact ⟨e, rfl, hfails⟩
  | .error (.rateLimit _), hfails =>
      rw [herror _ rfl]
      exact ⟨_, rfl, fun ht => (hfails ht).symm⟩

theorem apiFranceTravail_matches (criterion : Criterion) (now : Int) (answer : FranceTravailAnswer) :
    Matches int .apiFtRechercherUsager criterion now
      (certifyCriterionWithApiFranceTravail int fromisoformat criterion now answer)
      (apiFranceTravailVerdict fromisoformat answer) := by
  have husager := franceTravailRequest_spec int answer.usagerToken answer.usager
  have hrqth := franceTravailRequest_spec int answer.rqthToken answer.rqth
  unfold apiFranceTravailVerdict
  cases hu : franceTravailData answer.usagerToken answer.usager with
  | error failure =>
      rw [hu] at husager
      refine certify_of_fails int fromisoformat husager (fun e he => ?_) (fun hnone => ?_)
      · simp only [rechercherRqth, he]
        rfl
      · simp only [rechercherRqth, hnone]
        rfl
  | ok data =>
      rw [hu] at husager
      have hfound : franceTravailRequest answer.usagerToken answer.usager = .ok (some data) := husager
      cases hj : jetonUsager data with
      | error e =>
          have hrun : rechercherRqth fromisoformat answer = .error e := by
            simp only [rechercherRqth, hfound, hj, bind, Except.bind]
          unfold certifyCriterionWithApiFranceTravail
          rw [hrun]
          rcases jetonUsager_error hj with ⟨data, rfl⟩ | ⟨data, rfl⟩ | rfl <;> simp only [hj]
          · rfl
          · rfl
          · exact ⟨_, rfl, nofun⟩
      | ok jeton =>
          simp only [hj]
          cases hd : franceTravailData answer.rqthToken answer.rqth with
          | error failure =>
              rw [hd] at hrqth
              refine certify_of_fails int fromisoformat hrqth (fun e he => ?_) (fun hnone => ?_)
              · simp only [rechercherRqth, hfound, hj, he, bind, Except.bind]
              · simp only [rechercherRqth, hfound, hj, hnone, bind, Except.bind]
                rfl
          | ok data =>
              rw [hd] at hrqth
              have hanswer : franceTravailRequest answer.rqthToken answer.rqth = .ok (some data) := hrqth
              unfold certifyCriterionWithApiFranceTravail
              simp only
              cases hp : rqthPeriod fromisoformat data with
              | none =>
                  have hrun : rechercherRqth fromisoformat answer = .error (.raised .other) := by
                    simp only [rechercherRqth, hfound, hj, hanswer, hp, bind, Except.bind]
                    rfl
                  rw [hrun]
                  exact ⟨_, rfl, nofun⟩
              | some period =>
                  have hrun : rechercherRqth fromisoformat answer = .ok (data, period) := by
                    simp only [rechercherRqth, hfound, hj, hanswer, hp, bind, Except.bind]
                    rfl
                  rw [hrun]
                  rfl

/-- Both providers make of the criterion what the answer says. -/
theorem certify_matches (criterion : Criterion) (now : Int) (answer : Answer) :
    Matches int answer.certifier criterion now (certify int fromisoformat criterion now answer)
      (verdict fromisoformat answer) := by
  cases answer with
  | apiParticulier exchange => exact apiParticulier_matches int fromisoformat criterion now exchange
  | apiFranceTravail answer => exact apiFranceTravail_matches int fromisoformat criterion now answer

/-- A failed attempt is all that is saved. -/
theorem asyncCertifyCriterion_of_error {jobSeeker : JobSeeker} {isConfigured isBornInFrance : Bool}
    {accepts : Criterion → Bool} {attemptAt now : Int} {db : Db} {answer : Answer} {e : Raised}
    (hcan : canAsk jobSeeker isConfigured isBornInFrance answer = true)
    (h : certify int fromisoformat (db.attempted attemptAt).criterion now answer = .error e) :
    asyncCertifyCriterion int fromisoformat jobSeeker isConfigured isBornInFrance accepts attemptAt now db answer =
      (db.attempted attemptAt, some e) := by
  simp only [Db.attempted] at h ⊢
  simp only [asyncCertifyCriterion, hcan, Bool.not_true, Bool.false_eq_true, if_false, h]

/-- The criterion and the certification are saved when the database takes them. -/
theorem asyncCertifyCriterion_of_ok {jobSeeker : JobSeeker} {isConfigured isBornInFrance : Bool}
    {accepts : Criterion → Bool} {attemptAt now : Int} {db : Db} {answer : Answer} {criterion : Criterion}
    {userFound : Bool} (hcan : canAsk jobSeeker isConfigured isBornInFrance answer = true)
    (h : certify int fromisoformat (db.attempted attemptAt).criterion now answer = .ok (criterion, userFound)) :
    asyncCertifyCriterion int fromisoformat jobSeeker isConfigured isBornInFrance accepts attemptAt now db answer =
      if accepts criterion then
        (⟨criterion, if userFound then upsertCertification db.certifications answer.certifier now
          else db.certifications⟩, none)
      else (db.attempted attemptAt, some .other) := by
  simp only [Db.attempted] at h ⊢
  simp only [asyncCertifyCriterion, hcan, Bool.not_true, Bool.false_eq_true, if_false, h]
  by_cases haccepts : accepts criterion = true
  · simp only [haccepts, Bool.not_true, Bool.false_eq_true, if_false, if_true]
  · simp only [haccepts, Bool.not_false, if_true, Bool.false_eq_true, if_false]

end Itou.Eligibility.Tasks
