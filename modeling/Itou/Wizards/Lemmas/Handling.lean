import Itou.Wizards.Subclasses

/-!
# What one request does to the session
-/

namespace Itou.Wizards

open Itou.Lib

universe u

namespace WizardView

variable {Env : Type u} {view : WizardView Env} {env : Env} {session session' : Session} {request : Request}
  {result : Except Raised Response} {ns ns' : Namespace} {name n : Nat}

/-! ## The session after `setup_wizard` -/

theorem lookup_changed_ne (hn : n ≠ name) : (changed session name ns ns').lookup n = session.lookup n := by
  unfold changed
  split
  · rfl
  · exact AList.lookup_insert_ne hn

theorem lookup_changed (h : session.lookup name = some ns) :
    (changed session name ns ns').lookup name = some ns' := by
  unfold changed
  split
  · rename_i hsame
    rw [h, hsame]
  · exact AList.lookup_insert _

/-! ## The request -/

/-- How a request is answered: it is not found, it raises and nothing happens to the session, or the wizard is set up
and the request goes on. -/
theorem handle_cases (h : view.handle env session request = (session', result)) :
    (session' = session ∧ result = .ok .notFound) ∨
      ∃ ns ns', session.lookup request.name = some ns ∧ view.loadSession session request.name = some ns ∧
        view.setupWizard env ns = some ns' ∧
        ((∃ raised, session' = session ∧ result = .error raised ∧
            view.dispatch env (changed session request.name ns ns') ns' request = .error raised) ∨
          ∃ response, result = .ok response ∧
            view.dispatch env (changed session request.name ns ns') ns' request = .ok (session', response)) := by
  unfold handle at h
  split at h
  · cases h
    exact Or.inl ⟨rfl, rfl⟩
  · rename_i ns hload
    split at h
    · cases h
      exact Or.inl ⟨rfl, rfl⟩
    · rename_i ns' hsetup
      refine Or.inr ⟨ns, ns', (Option.filter_eq_some_iff.mp hload).1, hload, hsetup, ?_⟩
      split at h
      · rename_i raised hdispatch
        cases h
        exact Or.inl ⟨raised, rfl, rfl, hdispatch⟩
      · rename_i hdispatch
        cases h
        exact Or.inr ⟨_, rfl, hdispatch⟩

/-- How it goes on: nothing more happens to the session, or it is a POST to a step of the wizard. -/
theorem dispatch_cases (view : WizardView Env) (env : Env) (session : Session) (ns : Namespace) (request : Request) :
    ((∀ s r, view.dispatch env session ns request = .ok (s, r) → s = session ∧ r.isOver = false) ∧
        doneOn ((view.dispatch env session ns request).map Prod.snd) = none ∧
        sentOn ((view.dispatch env session ns request).map Prod.snd) = none) ∨
      ∃ form body, request.method = .post body ∧ request.step ∈ view.getSteps env ns ∧ view.testFunc env = true ∧
        view.getForm env ns request.step = some form ∧ view.dispatch env session ns request =
          view.post env session request.name ns request.step form body := by
  unfold dispatch
  split
  · refine Or.inl ⟨?_, rfl, rfl⟩
    rintro s r ⟨⟩
    exact ⟨rfl, rfl⟩
  · rename_i hstep
    split
    · refine Or.inl ⟨?_, rfl, rfl⟩
      rintro s r ⟨⟩
    · rename_i form hform
      split
      · refine Or.inl ⟨?_, rfl, rfl⟩
        rintro s r ⟨⟩
        exact ⟨rfl, rfl⟩
      · rename_i htest
        split
        · refine Or.inl ?_
          unfold Methods.get
          split
          · refine ⟨?_, rfl, rfl⟩
            rintro s r ⟨⟩
          · refine ⟨?_, rfl, rfl⟩
            rintro s r ⟨⟩
            exact ⟨rfl, rfl⟩
          · split
            · refine ⟨?_, rfl, rfl⟩
              rintro s r ⟨⟩
              exact ⟨rfl, rfl⟩
            · refine ⟨?_, rfl, rfl⟩
              rintro s r ⟨⟩
        · rename_i body hmethod
          exact Or.inr ⟨form, body, hmethod, not_not.mp hstep, by simpa using htest, hform, rfl⟩

/-- Other wizards of the session are left. -/
theorem handle_lookup_ne (h : view.handle env session request = (session', result)) (hn : n ≠ request.name) :
    session'.lookup n = session.lookup n := by
  rcases handle_cases h with ⟨rfl, _⟩ | ⟨ns, ns', _, _, _, ⟨_, rfl, _⟩ | ⟨response, _, hok⟩⟩
  · rfl
  · rfl
  · rcases dispatch_cases view env (changed session request.name ns ns') ns' request with
      ⟨hsame, _⟩ | ⟨form, body, _, _, _, _, hpost⟩
    · rw [(hsame _ _ hok).1, lookup_changed_ne hn]
    · rw [hpost] at hok
      rw [view.post_lookup_ne _ _ _ _ _ _ _ _ _ _ hn hok, lookup_changed_ne hn]

/-- A request makes no wizard. -/
theorem mem_of_mem_handle (h : view.handle env session request = (session', result)) (hn : n ∈ session') :
    n ∈ session := by
  by_cases hname : n = request.name
  · subst hname
    rcases handle_cases h with ⟨rfl, _⟩ | ⟨ns, _, hlookup, _⟩
    · exact hn
    · rw [← AList.lookup_isSome, hlookup]
      rfl
  · rw [← AList.lookup_isSome] at hn ⊢
    rwa [handle_lookup_ne h hname] at hn

/-! ## The end of a wizard -/

/-- A request that is answered by an exception leaves the session. -/
theorem handle_error {raised : Raised} (h : view.handle env session request = (session', .error raised)) :
    session' = session := by
  rcases handle_cases h with ⟨rfl, _⟩ | ⟨_, _, _, _, _, ⟨_, rfl, _⟩ | ⟨response, hresponse, _⟩⟩
  · rfl
  · rfl
  · cases hresponse

/-- An answer that ends the wizard deletes its session. -/
theorem handle_isOver {response : Response} (h : view.handle env session request = (session', .ok response))
    (hover : response.isOver = true) : request.name ∈ session ∧ request.name ∉ session' := by
  rcases handle_cases h with ⟨_, hresponse⟩ | ⟨ns, ns', hlookup, _, _, hresult⟩
  · cases hresponse
    cases hover
  · refine ⟨?_, ?_⟩
    · rw [← AList.lookup_isSome, hlookup]
      rfl
    · rcases hresult with ⟨_, _, hresponse, _⟩ | ⟨_, hresponse, hok⟩
      · cases hresponse
      · cases hresponse
        rcases dispatch_cases view env (changed session request.name ns ns') ns' request with
          ⟨hsame, _⟩ | ⟨form, body, _, _, _, _, hpost⟩
        · rw [(hsame _ _ hok).2] at hover
          cases hover
        · rw [hpost] at hok
          rw [view.post_isOver _ _ _ _ _ _ _ _ _ hok hover]
          exact fun hin => (AList.mem_erase.mp hin).1 rfl

/-- The result of a request that goes on. -/
theorem snd_handle (h : view.handle env session request = (session', result)) :
    result = .ok .notFound ∨ ∃ ns session, result = (view.dispatch env session ns request).map Prod.snd := by
  rcases handle_cases h with ⟨_, rfl⟩ | ⟨ns, ns', _, _, _, ⟨_, _, rfl, hdispatch⟩ | ⟨_, rfl, hdispatch⟩⟩
  · exact Or.inl rfl
  · exact Or.inr ⟨ns', _, by rw [hdispatch]; rfl⟩
  · exact Or.inr ⟨ns', _, by rw [hdispatch]; rfl⟩

/-- What `done` has been called on, or what has been sent, was complete. -/
theorem handle_complete (h : view.handle env session request = (session', result)) :
    (∀ ns, doneOn result = some ns → view.toMethods.Complete env ns) ∧
    ∀ ns body, sentOn result = some (ns, body) → view.toMethods.CompleteWith env ns body := by
  rcases snd_handle h with rfl | ⟨ns, session, rfl⟩
  · exact ⟨by rintro _ ⟨⟩, by rintro _ _ ⟨⟩⟩
  · rcases dispatch_cases view env session ns request with ⟨_, hdone, hsent⟩ | ⟨form, body, _, hstep, _, hform, hpost⟩
    · rw [hdone, hsent]
      exact ⟨by rintro _ ⟨⟩, by rintro _ _ ⟨⟩⟩
    · rw [hpost]
      exact ⟨view.post_doneOn _ _ _ _ _ _ _ hform hstep, view.post_sentOn _ _ _ _ _ _ _ hform⟩

/-! ## Data that does not validate -/

/-- A POST whose data does not validate leaves the session, but for what `setup_wizard` changes. -/
theorem handle_invalid {body : Data} (h : view.handle env session request = (session', result))
    (hmethod : request.method = .post body) (hinvalid : view.validates env session request body = false) :
    (∀ n, session'.lookup n = session.lookup n) ∨
      ∃ ns ns', session.lookup request.name = some ns ∧ view.setupWizard env ns = some ns' ∧
        session'.lookup request.name = some ns' := by
  rcases handle_cases h with ⟨rfl, _⟩ | ⟨ns, ns', hlookup, hload, hsetup, ⟨_, rfl, _⟩ | ⟨response, _, hok⟩⟩
  · exact Or.inl fun _ => rfl
  · exact Or.inl fun _ => rfl
  · refine Or.inr ⟨ns, ns', hlookup, hsetup, ?_⟩
    rcases dispatch_cases view env (changed session request.name ns ns') ns' request with
      ⟨hsame, _⟩ | ⟨form, body', hmethod', hstep, htest, hform, hpost⟩
    · rw [(hsame _ _ hok).1]
      exact lookup_changed hlookup
    · rw [hmethod] at hmethod'
      cases hmethod'
      have hbound : view.boundForm env session request = some form := by
        simp only [boundForm, hload, hsetup, Option.bind_some, hstep, htest, decide_true, Bool.and_self,
          if_true, hform]
      have hnone : form body = none := by
        simpa only [validates, hbound, Option.any_some, Option.isSome_eq_false_iff,
          Option.isNone_iff_eq_none] using hinvalid
      rw [hpost] at hok
      rw [view.post_invalid _ _ _ _ _ _ _ _ _ hnone hok]
      exact lookup_changed hlookup

end WizardView

/-! ## The names of the wizards -/

namespace State

/-- The names that have been given, and those of the wizards that are over. -/
structure Inv (s : State) : Prop where
  session : ∀ n ∈ s.session, n < s.nextName
  finished : ∀ n ∈ s.finished, n < s.nextName ∧ n ∉ s.session
  nodup : s.finished.Nodup

theorem inv_start : Inv {} where
  session := fun n hn => absurd hn (AList.notMem_empty n)
  finished := fun _ hn => nomatch hn
  nodup := List.nodup_nil

theorem Inv.initializeSessionAndStart {s : State} (hs : s.Inv) (ns : Namespace) :
    (s.initializeSessionAndStart ns).Inv := by
  unfold State.initializeSessionAndStart
  split
  · exact hs
  · refine ⟨fun n hn => ?_, fun n hn => ?_, hs.nodup⟩
    · rcases (AList.mem_insert _).mp hn with rfl | hn
      · exact Nat.lt_succ_self _
      · exact (hs.session n hn).trans (Nat.lt_succ_self _)
    · obtain ⟨hlt, hnot⟩ := hs.finished n hn
      refine ⟨hlt.trans (Nat.lt_succ_self _), fun hin => ?_⟩
      rcases (AList.mem_insert _).mp hin with rfl | hin
      · exact absurd hlt (Nat.lt_irrefl _)
      · exact hnot hin

theorem Inv.request {s : State} (hs : s.Inv) (wizard : Wizard) (env : Env) (request : Request) :
    (s.request wizard env request).Inv := by
  cases hhandle : wizard.view.handle env s.session request with
  | mk session result =>
      have hmem : ∀ n ∈ session, n ∈ s.session := fun n hn => WizardView.mem_of_mem_handle hhandle hn
      have hfinished : ∀ n ∈ s.finished, n < s.nextName ∧ n ∉ session := fun n hn =>
        ⟨(hs.finished n hn).1, fun h => (hs.finished n hn).2 (hmem n h)⟩
      -- An answer that ends the wizard deletes its session, which was there.
      have hends : result.toOption.any Response.isOver = true →
          request.name ∈ s.session ∧ request.name ∉ session := by
        intro hover
        cases result with
        | error raised => cases hover
        | ok response => exact WizardView.handle_isOver hhandle hover
      simp only [State.request, hhandle]
      refine ⟨fun n hn => hs.session n (hmem n hn), ?_, ?_⟩
      · intro n hn
        dsimp only at hn
        split at hn
        · rename_i hover
          rcases List.mem_cons.mp hn with rfl | hn
          · exact ⟨hs.session _ (hends hover).1, (hends hover).2⟩
          · exact hfinished n hn
        · exact hfinished n hn
      · dsimp only
        split
        · rename_i hover
          exact List.nodup_cons.mpr ⟨fun h => (hs.finished _ h).2 (hends hover).1, hs.nodup⟩
        · exact hs.nodup

theorem Inv.dismissOrientationDisclaimer {s : State} (hs : s.Inv) (name : Nat) :
    (s.dismissOrientationDisclaimer name).Inv := by
  unfold State.dismissOrientationDisclaimer
  split
  · exact hs
  · rename_i ns hns
    have hname : name ∈ s.session := by
      rw [← AList.lookup_isSome, (Option.filter_eq_some_iff.mp hns).1]
      rfl
    have hmem : ∀ n, n ∈ s.session.insert name { ns with disclaimerDismissed := true } → n ∈ s.session := by
      intro n hn
      rcases (AList.mem_insert _).mp hn with rfl | hn
      · exact hname
      · exact hn
    exact ⟨fun n hn => hs.session n (hmem n hn),
      fun n hn => ⟨(hs.finished n hn).1, fun h => (hs.finished n hn).2 (hmem n h)⟩, hs.nodup⟩

theorem Inv.step {s s' : State} {action : Action} (hs : s.Inv) (h : s.step action = some s') : s'.Inv := by
  cases action with
  | startAdd resetUrl =>
      cases h
      exact hs.initializeSessionAndStart _
  | startRefuse env applicationIds nextUrl =>
      cases h
      unfold State.startRefuse
      split
      · exact hs
      · split
        · exact hs
        · exact hs.initializeSessionAndStart _
  | startOrientation env serviceUid jobSeekerPublicId =>
      cases h
      unfold State.startOrientation
      split
      · exact hs.initializeSessionAndStart _
      · exact hs
  | request wizard env request =>
      cases h
      exact hs.request wizard env request
  | dismissOrientationDisclaimer name =>
      cases h
      exact hs.dismissOrientationDisclaimer name

end State

end Itou.Wizards
