import Itou.Certification.Models

/-!
# Saves of a certified person

A save that detects a change leaves no certification, in the row and in the instance. One that detects none writes the
instance as it is.

Between two writes, what a process has in memory was read at one time, and an answer goes with the identity that the
process has in memory.
-/

namespace Itou.Certification

/-! ## Rows -/

theorem Row.describes_iff {row : Row} :
    row.Describes ↔ ∀ c ∈ row.peObfuscatedNir,
      c.sent.names = row.names ∧ c.sent.birthdate = row.birthdate ∧ c.sent.nir = row.nir := by
  constructor
  · intro h c hc
    rw [h c hc]
    exact ⟨rfl, rfl, rfl⟩
  · intro h c hc
    obtain ⟨hnames, hbirthdate, hnir⟩ := h c hc
    rw [Row.identity, ← hnames, ← hbirthdate, ← hnir]

theorem Row.describes_of_none {row : Row} (h : row.peObfuscatedNir = none) : row.Describes := by
  intro c hc
  rw [h] at hc
  exact absurd hc.symm (Option.some_ne_none c)

/-! ## Users -/

namespace UserInstance

variable {user : UserInstance} {updateFields : Option (List UserField)} {row : Row}

/-- Under a certification of the row, the names that a save writes have to be those of the row. -/
theorem write_describes (h : row.Describes) :
    (user.write updateFields row).Describes ↔
      row.peObfuscatedNir = none ∨
        (Writes updateFields .firstName → user.names.firstName = row.names.firstName) ∧
        (Writes updateFields .lastName → user.names.lastName = row.names.lastName) := by
  rw [Row.describes_iff] at h ⊢
  cases hpe : row.peObfuscatedNir with
  | none => simp [write, hpe]
  | some c =>
      obtain ⟨hnames, hbirthdate, hnir⟩ := h c (by rw [hpe]; rfl)
      simp only [write, hpe, Option.mem_some_iff, forall_eq', hnames, hbirthdate, hnir, and_true, reduceCtorEq, false_or]
      obtain ⟨first, last⟩ := row.names
      simp only [Names.mk.injEq]
      apply and_congr
      · split <;> rename_i hw <;> simp [hw, eq_comm]
      · split <;> rename_i hw <;> simp [hw, eq_comm]

end UserInstance

/-! ## Profiles -/

namespace ProfileInstance

variable {profile : ProfileInstance} {updateFields : Option (List ProfileField)} {row : Row}

/-- The certification in memory was obtained for the birthdate and the NIR that a save compares to. -/
def Inv (profile : ProfileInstance) : Prop :=
  ∀ c ∈ profile.peObfuscatedNir, c.sent.birthdate = profile.oldBirthdate ∧ c.sent.nir = profile.oldNir

theorem Inv.of_none (h : profile.peObfuscatedNir = none) : profile.Inv := by
  intro c hc
  rw [h] at hc
  exact absurd hc.symm (Option.some_ne_none c)

theorem load_inv (h : row.Describes) : (load row).Inv :=
  fun c hc => (Row.describes_iff.mp h c hc).2

theorem eq_old_of_unchanged (h : ¬ profile.HasDataChanged) :
    profile.birthdate = profile.oldBirthdate ∧ profile.nir = profile.oldNir := by
  simpa only [HasDataChanged, ne_eq, not_or, not_not] using h

theorem Inv.setOldValues (h : profile.Inv) (hchanged : ¬ profile.HasDataChanged) : profile.setOldValues.Inv := by
  intro c hc
  obtain ⟨hbirthdate, hnir⟩ := eq_old_of_unchanged hchanged
  simpa only [ProfileInstance.setOldValues, hbirthdate, hnir] using h c hc

theorem save_of_changed (h : profile.HasDataChanged) :
    (profile.save updateFields row).1.peObfuscatedNir = none ∧
      (profile.save updateFields row).2.peObfuscatedNir = none := by
  have hw : Writes (updateFields.map (· ++ [.peObfuscatedNir, .peLastCertificationAttemptAt]))
      ProfileField.peObfuscatedNir := by
    intro fields hfields
    obtain ⟨given, -, rfl⟩ := Option.map_eq_some_iff.mp hfields
    exact List.mem_append_right given (List.mem_cons_self ..)
  simp only [save, h, if_true, write, hw]
  exact ⟨rfl, rfl⟩

theorem save_of_unchanged (h : ¬ profile.HasDataChanged) :
    profile.save updateFields row = (profile.setOldValues, profile.write updateFields row) := by
  simp only [save, h, if_false]

theorem Inv.save (h : profile.Inv) : (profile.save updateFields row).1.Inv := by
  by_cases hchanged : profile.HasDataChanged
  · exact .of_none (save_of_changed hchanged).1
  · rw [save_of_unchanged hchanged]
    exact h.setOldValues hchanged

/-- The save of `User.save` drops the certification, whatever it detects. -/
theorem reset_save :
    (profile.reset.save (some [.peObfuscatedNir, .peLastCertificationAttemptAt]) row).1.peObfuscatedNir = none ∧
      (profile.reset.save (some [.peObfuscatedNir, .peLastCertificationAttemptAt]) row).2.peObfuscatedNir = none := by
  by_cases hchanged : profile.reset.HasDataChanged
  · exact save_of_changed hchanged
  · rw [save_of_unchanged hchanged]
    exact ⟨rfl, by simp [write, Writes, reset]⟩

/-- Without a change, the certification that is in the row after a save describes the row exactly when the instance is
up to date. -/
theorem write_describes (h : row.Describes) (hinv : profile.Inv) (hchanged : ¬ profile.HasDataChanged) :
    (profile.write updateFields row).Describes ↔ profile.UpToDate updateFields row := by
  obtain ⟨hbirthdate, hnir⟩ := eq_old_of_unchanged hchanged
  rw [Row.describes_iff]
  unfold UpToDate
  by_cases hw : Writes updateFields .peObfuscatedNir
  · simp only [write, hw, if_true]
    refine forall₂_congr fun c hc => and_congr_right' (and_congr ?_ ?_)
    · rw [(hinv c hc).1, ← hbirthdate]
      split <;> rename_i hb <;> simp [hb]
    · rw [(hinv c hc).2, ← hnir]
      split <;> rename_i hn <;> simp [hn]
  · simp only [write, hw, if_false]
    cases hpe : row.peObfuscatedNir with
    | none => simp
    | some c =>
        obtain ⟨hnames, hb, hn⟩ := Row.describes_iff.mp h c (by rw [hpe]; rfl)
        simp only [Option.mem_some_iff, forall_eq', hnames, hb, hn, true_and, reduceCtorEq, false_or]
        apply and_congr
        · split <;> rename_i hw <;> simp [hw, eq_comm]
        · split <;> rename_i hw <;> simp [hw, eq_comm]

/-- A save leaves a certification that describes the row exactly when it detects a change or is up to date. -/
theorem save_describes (h : row.Describes) (hinv : profile.Inv) :
    (profile.save updateFields row).2.Describes ↔
      profile.HasDataChanged ∨ profile.UpToDate updateFields row := by
  by_cases hchanged : profile.HasDataChanged
  · simp only [hchanged, true_or, iff_true]
    exact Row.describes_of_none (save_of_changed hchanged).2
  · rw [save_of_unchanged hchanged, write_describes h hinv hchanged]
    simp only [hchanged, false_or]

/-- The save of an answer that was returned for the birthdate and the NIR in memory. -/
theorem answer_save {found : Certificate} {names : Names} (hfound : profile.peObfuscatedNir = some found)
    (hsent : found.sent = ⟨names, profile.birthdate, profile.nir⟩) (h : row.Describes) :
    (profile.save (some [.peObfuscatedNir, .peLastCertificationAttemptAt]) row).1.Inv ∧
      ((profile.save (some [.peObfuscatedNir, .peLastCertificationAttemptAt]) row).2.Describes ↔
        profile.HasDataChanged ∨ found.sent = row.identity) := by
  by_cases hchanged : profile.HasDataChanged
  · simp only [hchanged, true_or, iff_true]
    obtain ⟨hinstance, hsaved⟩ := save_of_changed hchanged
    exact ⟨.of_none hinstance, Row.describes_of_none hsaved⟩
  · have hinv : profile.Inv := by
      intro c hc
      obtain rfl : found = c := Option.some.inj (hfound.symm.trans hc)
      rw [hsent]
      exact eq_old_of_unchanged hchanged
    refine ⟨hinv.save, ?_⟩
    rw [save_describes h hinv]
    simp [UpToDate, Writes, hfound, hchanged, hsent, Row.identity]

end ProfileInstance

/-! ## What the processes hold -/

open Itou.Lib

namespace Process

/-- What a process holds, according to where it stands. -/
def Inv (p : Process) : Prop :=
  match p.phase with
  | .editing => ∀ profile ∈ p.profile, profile.Inv
  | .notifying found => ∃ profile ∈ p.profile, profile.Inv ∧
      found.sent = ⟨p.user.names, profile.birthdate, profile.nir⟩
  | .examining => True
  | .examined certified swapped => swapped = true → certified = true ∧
      ∀ profile ∈ p.profile, ∀ c ∈ profile.peObfuscatedNir, c.sent.names = p.user.names

variable {p : Process} {row : Row}

theorem inv_editing (hp : p.phase = .editing) : p.Inv ↔ ∀ profile ∈ p.profile, profile.Inv := by
  simp only [Inv, hp]

theorem jobseekerProfile_inv (h : ∀ profile ∈ p.profile, profile.Inv) (hrow : row.Describes) :
    (p.jobseekerProfile row).Inv := by
  unfold jobseekerProfile
  cases hprofile : p.profile with
  | none => exact ProfileInstance.load_inv hrow
  | some profile => exact h profile hprofile

theorem read_inv (hp : p.phase = .editing) (h : ∀ profile ∈ p.profile, profile.Inv) (hrow : row.Describes) :
    Inv { p with profile := some (p.jobseekerProfile row) } := by
  simp only [Inv, hp, Option.mem_some_iff, forall_eq']
  exact jobseekerProfile_inv h hrow

theorem saveUser_inv {updateFields : Option (List UserField)} (hp : p.phase = .editing)
    (h : ∀ profile ∈ p.profile, profile.Inv) : (p.saveUser updateFields row).1.Inv := by
  unfold saveUser
  split
  · simp only [Inv, hp, Option.mem_some_iff, forall_eq']
    exact .of_none ProfileInstance.reset_save.1
  · simpa only [Inv, hp] using h

theorem saveProfile_inv {updateFields : Option (List ProfileField)} (hp : p.phase = .editing)
    (h : ∀ profile ∈ p.profile, profile.Inv) (hrow : row.Describes) : (p.saveProfile updateFields row).1.Inv := by
  simp only [saveProfile, Inv, hp, Option.mem_some_iff, forall_eq']
  exact (jobseekerProfile_inv h hrow).save

theorem notifySearch_inv {response : Option String} (hp : p.phase = .editing)
    (h : ∀ profile ∈ p.profile, profile.Inv) (hrow : row.Describes) : (p.notifySearch row response).Inv := by
  have hprofile := jobseekerProfile_inv h hrow
  have hread := read_inv hp h hrow
  simp only [notifySearch]
  split
  · cases response with
    | none => exact hread
    | some idNational => exact ⟨_, rfl, hprofile, rfl⟩
  · exact hread

theorem editUser_inv {names : Names} (hp : p.phase = .editing) (h : ∀ profile ∈ p.profile, profile.Inv) :
    Inv { p with user := { p.user with names } } := by
  simpa only [Inv, hp] using h

/-- What a save compares to stays as it was read. -/
theorem editProfile_inv {birthdate : Option Int} {nir : String} (hp : p.phase = .editing)
    (h : ∀ profile ∈ p.profile, profile.Inv) (hrow : row.Describes) :
    Inv { p with profile := some { p.jobseekerProfile row with birthdate, nir } } := by
  simp only [Inv, hp, Option.mem_some_iff, forall_eq']
  exact jobseekerProfile_inv h hrow

theorem certifySearch_inv {profile : ProfileInstance} {now : DateTime} {response swapped : Option String} :
    (p.certifySearch profile now response swapped).Inv := by
  cases response with
  | some idNational => exact fun h => absurd h Bool.false_ne_true
  | none =>
      cases swapped with
      | none => exact fun h => absurd h Bool.false_ne_true
      | some idNational =>
          rintro -
          refine ⟨rfl, ?_⟩
          rintro _ ⟨⟩ _ ⟨⟩
          rfl

end Process

/-! ## The writes -/

namespace Process

variable {p : Process} {row : Row}

theorem saveUser_describes {updateFields : Option (List UserField)} (hrow : row.Describes) :
    (p.saveUser updateFields row).2.Describes ↔
      p.user.HasDataChanged ∨ row.peObfuscatedNir = none ∨
        (Writes updateFields .firstName → p.user.names.firstName = row.names.firstName) ∧
        (Writes updateFields .lastName → p.user.names.lastName = row.names.lastName) := by
  by_cases hchanged : p.user.HasDataChanged
  · simp only [saveUser, hchanged, if_true, true_or, iff_true]
    exact Row.describes_of_none ProfileInstance.reset_save.2
  · simp only [saveUser, hchanged, if_false, false_or]
    exact UserInstance.write_describes hrow

/-- The answer of a search, as `notify_pole_emploi` saves it. -/
theorem notifySave_describes {found : Certificate} {now : DateTime} {profile : ProfileInstance}
    (hprofile : p.profile = some profile) (hfound : found.sent = ⟨p.user.names, profile.birthdate, profile.nir⟩)
    (hrow : row.Describes) :
    (p.notifySave found now row).1.Inv ∧
      ((p.notifySave found now row).2.Describes ↔ profile.HasDataChanged ∨ found.sent = row.identity) := by
  have hread : p.jobseekerProfile row = profile := by rw [jobseekerProfile, hprofile, Option.getD_some]
  simp only [notifySave, hread, saveProfile, Inv, Option.mem_some_iff, forall_eq']
  exact ProfileInstance.answer_save rfl hfound hrow

/-- After a swap, the certification describes the row when it goes with its birthdate and its NIR: the names are
written too. -/
theorem certifyUpdate_describes {profile : ProfileInstance} {certified swapped : Bool}
    (hprofile : p.profile = some profile) (hp : p.phase = .examined certified swapped) (hinv : p.Inv)
    (hrow : row.Describes) :
    (p.certifyUpdate profile certified swapped row).Describes ↔
      match (certified, swapped) with
      | (true, false) => ∀ c ∈ profile.peObfuscatedNir, c.sent = row.identity
      | (true, true) => ∀ c ∈ profile.peObfuscatedNir, c.sent.birthdate = row.birthdate ∧ c.sent.nir = row.nir
      | _ => True := by
  simp only [Inv, hp, hprofile, Option.mem_some_iff, forall_eq'] at hinv
  cases swapped with
  | false =>
      cases certified with
      | false =>
          simp only [iff_true]
          exact Row.describes_iff.mpr (Row.describes_iff.mp hrow)
      | true => exact Iff.rfl
  | true =>
      obtain ⟨rfl, hnames⟩ := hinv rfl
      rw [Row.describes_iff]
      refine forall₂_congr fun c hc => ?_
      simp [certifyUpdate, UserInstance.write, ProfileInstance.write, Writes, hnames c hc]

end Process

end Itou.Certification
