import Itou.Certification.Lemmas.Saves

/-!
# Certifications describe the identity they were obtained for

They do as long as no process writes an answer, a name, a birthdate, a NIR or a certification that it read before a
change of the row.
-/

namespace Itou.Certification

open Itou.Lib

/-- What the processes hold in a state. -/
def State.Inv (s : State) : Prop := ∀ pid, ∀ p ∈ s.processes pid, p.Inv

namespace State

variable {s s' : State}

theorem Inv.set (h : s.Inv) {pid : Nat} {p : Process} {row : Row} (hp : p.Inv) : (s.set pid p row).Inv := by
  intro pid' q hq
  by_cases heq : pid' = pid
  · simp only [State.set, heq, Function.update_self, Option.mem_some_iff] at hq
    exact hq ▸ hp
  · simp only [State.set, Function.update_of_ne heq] at hq
    exact h pid' q hq

theorem Inv.remove (h : s.Inv) {pid : Nat} {row : Row} : Inv ⟨row, Function.update s.processes pid none⟩ := by
  intro pid' q hq
  by_cases heq : pid' = pid
  · simp only [heq, Function.update_self] at hq
    exact absurd hq.symm (Option.some_ne_none q)
  · simp only [Function.update_of_ne heq] at hq
    exact h pid' q hq

theorem editing_eq_some {pid : Nat} {p : Process} (h : s.editing pid = some p) :
    s.processes pid = some p ∧ p.phase = .editing := by
  obtain ⟨q, hq, h⟩ := Option.bind_eq_some_iff.mp h
  cases hphase : q.phase with
  | editing =>
      simp only [hphase, Option.some.injEq] at h
      exact ⟨h ▸ hq, h ▸ hphase⟩
  | _ => simp [hphase] at h

theorem Inv.editing (h : s.Inv) {pid : Nat} {p : Process} (hediting : s.editing pid = some p) :
    s.processes pid = some p ∧ p.phase = .editing ∧ ∀ profile ∈ p.profile, profile.Inv := by
  obtain ⟨hp, hphase⟩ := editing_eq_some hediting
  exact ⟨hp, hphase, (Process.inv_editing hphase).mp (h pid p hp)⟩

/-- A step that writes nothing. -/
theorem Inv.read (h : s.Inv) (hrow : s.row.Describes) {pid : Nat} {p : Process} (hp : p.Inv) :
    (s.set pid p s.row).Inv ∧ ((s.set pid p s.row).row.Describes ↔ True) :=
  ⟨h.set hp, iff_true_intro hrow⟩

/-- What a step does, from a state where the certification describes the row. -/
theorem step_spec {action : Action} (hinv : s.Inv) (hrow : s.row.Describes) (h : s.step action = some s') :
    s'.Inv ∧ (s'.row.Describes ↔ s.NothingStale action) := by
  cases action with
  | loadUser pid =>
      simp only [step] at h
      split at h
      · cases h
      · cases h
        apply hinv.read hrow
        exact fun profile hprofile => absurd hprofile.symm (Option.some_ne_none profile)
  | loadProfile pid =>
      obtain ⟨p, hediting, h⟩ := Option.bind_eq_some_iff.mp h
      cases h
      obtain ⟨-, hphase, hprofile⟩ := hinv.editing hediting
      exact hinv.read hrow (Process.read_inv hphase hprofile hrow)
  | editUser pid names =>
      obtain ⟨p, hediting, h⟩ := Option.bind_eq_some_iff.mp h
      cases h
      obtain ⟨-, hphase, hprofile⟩ := hinv.editing hediting
      exact hinv.read hrow (Process.editUser_inv hphase hprofile)
  | editProfile pid birthdate nir =>
      obtain ⟨p, hediting, h⟩ := Option.bind_eq_some_iff.mp h
      cases h
      obtain ⟨-, hphase, hprofile⟩ := hinv.editing hediting
      exact hinv.read hrow (Process.editProfile_inv hphase hprofile hrow)
  | saveUser pid updateFields =>
      obtain ⟨p, hediting, h⟩ := Option.bind_eq_some_iff.mp h
      cases h
      obtain ⟨hp, hphase, hprofile⟩ := hinv.editing hediting
      simp only [NothingStale, hp, Option.mem_some_iff, forall_eq']
      exact ⟨hinv.set (Process.saveUser_inv hphase hprofile), Process.saveUser_describes hrow⟩
  | saveProfile pid updateFields =>
      obtain ⟨p, hediting, h⟩ := Option.bind_eq_some_iff.mp h
      cases h
      obtain ⟨hp, hphase, hprofile⟩ := hinv.editing hediting
      simp only [NothingStale, hp, Option.mem_some_iff, forall_eq']
      exact ⟨hinv.set (Process.saveProfile_inv hphase hprofile hrow),
        ProfileInstance.save_describes hrow (Process.jobseekerProfile_inv hprofile hrow)⟩
  | notifySearch pid response =>
      obtain ⟨p, hediting, h⟩ := Option.bind_eq_some_iff.mp h
      cases h
      obtain ⟨-, hphase, hprofile⟩ := hinv.editing hediting
      exact hinv.read hrow (Process.notifySearch_inv hphase hprofile hrow)
  | notifySave pid now =>
      obtain ⟨p, hp, h⟩ := Option.bind_eq_some_iff.mp h
      cases hphase : p.phase with
      | notifying found =>
          simp only [hphase, Option.some.injEq] at h
          cases h
          have hpinv := hinv pid p hp
          simp only [Process.Inv, hphase] at hpinv
          obtain ⟨profile, hprofile, -, hfound⟩ := hpinv
          obtain ⟨hsaved, hdescribes⟩ := Process.notifySave_describes hprofile hfound hrow
          have hread : p.jobseekerProfile s.row = profile := by
            rw [Process.jobseekerProfile, hprofile, Option.getD_some]
          simp only [NothingStale, hp, Option.mem_some_iff, forall_eq', hphase, hread]
          exact ⟨hinv.set hsaved, hdescribes⟩
      | _ => simp [hphase] at h
  | certifySelect pid now =>
      simp only [step] at h
      split at h
      · cases h
      · split at h
        · cases h
          exact hinv.read hrow trivial
        · cases h
  | certifySearch pid now response swapped =>
      obtain ⟨p, hp, h⟩ := Option.bind_eq_some_iff.mp h
      obtain ⟨profile, -, h⟩ := Option.bind_eq_some_iff.mp h
      cases hphase : p.phase with
      | examining =>
          simp only [hphase, Option.some.injEq] at h
          cases h
          exact hinv.read hrow Process.certifySearch_inv
      | _ => simp [hphase] at h
  | certifyUpdate pid =>
      obtain ⟨p, hp, h⟩ := Option.bind_eq_some_iff.mp h
      obtain ⟨profile, hprofile, h⟩ := Option.bind_eq_some_iff.mp h
      cases hphase : p.phase with
      | examined certified swapped =>
          simp only [hphase, Option.some.injEq] at h
          cases h
          refine ⟨hinv.remove, ?_⟩
          rw [Process.certifyUpdate_describes hprofile hphase (hinv pid p hp) hrow]
          simp only [NothingStale, hp, hprofile, hphase, Option.mem_some_iff, forall_eq']
          cases certified <;> cases swapped <;> rfl
      | _ => simp [hphase] at h

end State

/-- Along any interleaving, the identifier was returned for the identity of the row exactly when no process writes what
it read before a change. -/
theorem describes_iff_nothingStale (identity : Identity) (actions : List Action) :
    AllStates State.step (fun s => s.row.Describes) (State.start identity) actions ↔
      AllSteps State.step State.NothingStale (State.start identity) actions := by
  have hstart : (State.start identity).Inv := fun _ p hp => absurd hp.symm (Option.some_ne_none p)
  exact allStates_iff_allSteps (fun _ _ _ hinv hrow h => (State.step_spec hinv hrow h).1)
    (fun _ _ _ hinv hrow h => (State.step_spec hinv hrow h).2) hstart (Row.describes_of_none rfl)

/-! ## Where it breaks -/

def identityExample : Identity := ⟨⟨"Jeanne", "Petit"⟩, some 7000, "290010101010125"⟩

/-- The names change between the search of `notify_pole_emploi` and its save. -/
def renamedDuringCall : List Action :=
  [.loadUser 0, .notifySearch 0 (some "ft"), .loadUser 1, .editUser 1 ⟨"Jeanne", "Martin"⟩, .saveUser 1 none,
    .notifySave 0 ⟨100, 0⟩]

/-- The NIR changes between the search of `pe_certify_users` and its `bulk_update`. -/
def correctedDuringCall : List Action :=
  [.certifySelect 0 ⟨100, 0⟩, .certifySearch 0 ⟨100, 0⟩ (some "ft") none, .loadUser 1,
    .editProfile 1 (some 7000) "290010101010222", .saveProfile 1 none, .certifyUpdate 0]

/-- A profile that was read with its certification is saved after a change of the names. -/
def certificationPutBack : List Action :=
  [.certifySelect 0 ⟨100, 0⟩, .certifySearch 0 ⟨100, 0⟩ (some "ft") none, .certifyUpdate 0, .loadUser 1,
    .loadProfile 1, .loadUser 2, .editUser 2 ⟨"Jeanne", "Martin"⟩, .saveUser 2 none, .saveProfile 1 none]

theorem certification_of_another_identity :
    ¬ AllStates State.step (fun s => s.row.Describes) (State.start identityExample) renamedDuringCall ∧
      ¬ AllStates State.step (fun s => s.row.Describes) (State.start identityExample) correctedDuringCall ∧
      ¬ AllStates State.step (fun s => s.row.Describes) (State.start identityExample) certificationPutBack := by
  decide

end Itou.Certification
