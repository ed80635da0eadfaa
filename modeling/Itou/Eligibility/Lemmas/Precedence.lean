import Itou.Eligibility.Geiq

/-!
# Why a prescriber's diagnosis comes first

The query orders by creation date only. What makes it right is an invariant of the runs: a valid diagnosis of
a GEIQ is older than any valid diagnosis of a prescriber for the same job seeker.
-/

namespace Itou.Eligibility

open Itou.Lib

/-- The invariant of the runs. -/
structure State.Inv (s : State) : Prop where
  /-- The check constraint `author_kind_coherence`. -/
  authors : ∀ d ∈ s.diagnoses, d.authorGeiq.isSome = !d.authorPrescriberOrganization.isSome
  created : ∀ d ∈ s.diagnoses, d.createdAt ≤ s.clock
  pks : (s.diagnoses.map GeiqEligibilityDiagnosis.pk).Nodup
  nextPk : ∀ d ∈ s.diagnoses, d.pk < s.nextPk
  older : ∀ p ∈ s.diagnoses, ∀ g ∈ s.diagnoses, p.jobSeeker = g.jobSeeker →
    p.authorPrescriberOrganization.isSome = true → g.authorGeiq.isSome = true →
    p.isValid s.clock.date = true → g.isValid s.clock.date = true → g.createdAt < p.createdAt
  unique : ∀ jobSeeker geiq, s.diagnoses.countP (·.byGeiq s.clock.date jobSeeker geiq) ≤ 1

theorem State.Inv.start (clock : DateTime) : (State.start clock).Inv where
  authors := by simp [State.start]
  created := by simp [State.start]
  pks := by simp [State.start]
  nextPk := by simp [State.start]
  older := by simp [State.start]
  unique := by simp [State.start]

theorem GeiqEligibilityDiagnosis.isValid_of_le {d : GeiqEligibilityDiagnosis} {today today' : Int}
    (hle : today ≤ today') (h : d.isValid today' = true) : d.isValid today = true := by
  simp only [GeiqEligibilityDiagnosis.isValid, decide_eq_true_eq] at h ⊢
  omega

/-! ## Changes that expire or renew diagnoses -/

/-- `d'` is the row of `d` with another expiry date or other contents. -/
structure SameDiagnosis (d d' : GeiqEligibilityDiagnosis) : Prop where
  pk : d'.pk = d.pk
  jobSeeker : d'.jobSeeker = d.jobSeeker
  authorPrescriberOrganization : d'.authorPrescriberOrganization = d.authorPrescriberOrganization
  authorGeiq : d'.authorGeiq = d.authorGeiq
  createdAt : d'.createdAt = d.createdAt

/-- Time goes by and rows change, but no diagnosis that was expired is valid again: the invariant stays. -/
theorem State.Inv.map {s s' : State} {f : GeiqEligibilityDiagnosis → GeiqEligibilityDiagnosis} (hs : s.Inv)
    (hclock : s.clock ≤ s'.clock) (hpk : s'.nextPk = s.nextPk) (hmap : s'.diagnoses = s.diagnoses.map f)
    (hsame : ∀ d ∈ s.diagnoses, SameDiagnosis d (f d))
    (hvalid : ∀ d ∈ s.diagnoses, (f d).isValid s'.clock.date = true → d.isValid s.clock.date = true) :
    s'.Inv where
  authors := by
    simp only [hmap, List.forall_mem_map]
    intro d hd
    rw [(hsame d hd).authorGeiq, (hsame d hd).authorPrescriberOrganization, hs.authors d hd]
  created := by
    simp only [hmap, List.forall_mem_map]
    intro d hd
    exact (hsame d hd).createdAt ▸ (hs.created d hd).trans hclock
  pks := by
    have hpks : s.diagnoses.map (GeiqEligibilityDiagnosis.pk ∘ f) =
        s.diagnoses.map GeiqEligibilityDiagnosis.pk :=
      List.map_congr_left fun d hd => (hsame d hd).pk
    rw [hmap, List.map_map, hpks]
    exact hs.pks
  nextPk := by
    simp only [hmap, hpk, List.forall_mem_map]
    intro d hd
    exact (hsame d hd).pk ▸ hs.nextPk d hd
  older := by
    simp only [hmap, List.forall_mem_map]
    intro p hp g hg hjs horganization hgeiq hvp hvg
    rw [(hsame p hp).jobSeeker, (hsame g hg).jobSeeker] at hjs
    rw [(hsame p hp).authorPrescriberOrganization] at horganization
    rw [(hsame g hg).authorGeiq] at hgeiq
    rw [(hsame p hp).createdAt, (hsame g hg).createdAt]
    exact hs.older p hp g hg hjs horganization hgeiq (hvalid p hp hvp) (hvalid g hg hvg)
  unique := by
    intro jobSeeker geiq
    rw [hmap, List.countP_map]
    refine le_trans (List.countP_mono_left fun d hd h => ?_) (hs.unique jobSeeker geiq)
    simp only [Function.comp_apply, GeiqEligibilityDiagnosis.byGeiq, Bool.and_eq_true,
      decide_eq_true_eq] at h ⊢
    rw [(hsame d hd).jobSeeker, (hsame d hd).authorGeiq] at h
    exact ⟨⟨hvalid d hd h.1.1, h.1.2⟩, h.2⟩

theorem State.Inv.invalidate {s : State} {d : GeiqEligibilityDiagnosis} (hs : s.Inv) :
    (s.invalidateObsoleteGeiqDiagnoses s.clock.date d).Inv := by
  unfold State.invalidateObsoleteGeiqDiagnoses
  split
  · refine hs.map le_rfl rfl rfl (fun g _ => ?_) (fun g _ h => ?_)
    · split <;> exact ⟨rfl, rfl, rfl, rfl, rfl⟩
    · split at h
      · rename_i hg
        simp only [Bool.and_eq_true] at hg
        exact hg.1.1.1
      · exact h
  · exact hs

/-! ## Creation -/

theorem mem_validDiagnosesFor {s : State} {today : Int} {jobSeeker : Nat} {geiq : Option Nat}
    {d : GeiqEligibilityDiagnosis} :
    d ∈ s.validDiagnosesFor today jobSeeker geiq ↔ d ∈ s.diagnoses ∧ d.isValid today = true ∧
      d.jobSeeker = jobSeeker ∧ d.authoredByPrescriberOrGeiq geiq = true := by
  simp only [State.validDiagnosesFor, diagnosesFor, mem_orderByDesc, List.mem_filter, Bool.and_eq_true,
    decide_eq_true_eq, and_assoc]

/-- A diagnosis that passes `clean` and is newer than all the others can be added. -/
theorem State.Inv.cons {s : State} {d : GeiqEligibilityDiagnosis} (hs : s.Inv)
    (hnewer : ∀ e ∈ s.diagnoses, e.createdAt < s.clock) (hcreated : d.createdAt = s.clock)
    (hpk : d.pk = s.nextPk) (hauthors : d.authorGeiq.isSome = !d.authorPrescriberOrganization.isSome)
    (hclean : s.clean s.clock.date d = .ok ()) :
    State.Inv { s with diagnoses := d :: s.diagnoses, nextPk := s.nextPk + 1 } := by
  have hnone : s.validDiagnosesFor s.clock.date d.jobSeeker d.authorGeiq = [] := by
    by_contra hne
    simp [State.clean, hne] at hclean
  have habsent : ∀ e ∈ s.diagnoses, e.isValid s.clock.date = true → e.jobSeeker = d.jobSeeker →
      e.authoredByPrescriberOrGeiq d.authorGeiq = true → False := fun e he hvalid hjs hby => by
    have hmem := mem_validDiagnosesFor.mpr ⟨he, hvalid, hjs, hby⟩
    rw [hnone] at hmem
    cases hmem
  constructor
  case authors =>
    intro e he
    rcases List.mem_cons.mp he with rfl | he
    · exact hauthors
    · exact hs.authors e he
  case created =>
    intro e he
    rcases List.mem_cons.mp he with rfl | he
    · exact hcreated.le
    · exact hs.created e he
  case pks =>
    rw [List.map_cons, List.nodup_cons]
    refine ⟨fun hmem => ?_, hs.pks⟩
    obtain ⟨e, he, heq⟩ := List.mem_map.mp hmem
    have hlt := hs.nextPk e he
    omega
  case nextPk =>
    intro e he
    rcases List.mem_cons.mp he with rfl | he
    · exact hpk ▸ Nat.lt_succ_self _
    · exact Nat.lt_succ_of_lt (hs.nextPk e he)
  case older =>
    intro p hp g hg hjs horganization hgeiq hvp hvg
    rcases List.mem_cons.mp hp with hpd | hold
    · rcases List.mem_cons.mp hg with hgd | hgold
      · rw [hpd] at horganization
        rw [hgd] at hgeiq
        simp [horganization, hgeiq] at hauthors
      · exact hpd ▸ hcreated ▸ hnewer g hgold
    · rcases List.mem_cons.mp hg with hgd | hgold
      · -- `clean` refuses a GEIQ while a prescriber's diagnosis is valid.
        exact (habsent p hold hvp (hgd ▸ hjs) (by simp [GeiqEligibilityDiagnosis.authoredByPrescriberOrGeiq,
          horganization])).elim
      · exact hs.older p hold g hgold hjs horganization hgeiq hvp hvg
  case unique =>
    intro jobSeeker geiq
    rw [List.countP_cons]
    split
    · rename_i hd
      have hzero : s.diagnoses.countP (·.byGeiq s.clock.date jobSeeker geiq) = 0 := by
        rw [List.countP_eq_zero]
        intro e he hby
        simp only [GeiqEligibilityDiagnosis.byGeiq, Bool.and_eq_true, decide_eq_true_eq] at hd hby
        exact habsent e he hby.1.1 (hby.1.2.trans hd.1.2.symm)
          (by simp [GeiqEligibilityDiagnosis.authoredByPrescriberOrGeiq, hby.2, hd.2])
      exact (congrArg (· + 1) hzero).le
    · exact hs.unique jobSeeker geiq

theorem authors_coherent {args : CreateArgs} {organization geiq : Option Nat}
    (h : args.authors = .ok (organization, geiq)) : geiq.isSome = !organization.isSome := by
  unfold CreateArgs.authors at h
  split at h
  · cases h; rfl
  · split at h
    · split at h
      · cases h
      · cases h; rfl
    · cases h
  · cases h

theorem State.Inv.create {s s' : State} {expirationDate : Int → Int} {args : CreateArgs} (hs : s.Inv)
    (hnewer : ∀ e ∈ s.diagnoses, e.createdAt < s.clock)
    (h : s.create expirationDate s.clock args = .ok s') : s'.Inv := by
  obtain ⟨⟨organization, geiq⟩, hauthors, h⟩ := bind_eq_ok.mp h
  obtain ⟨_, hclean, h⟩ := bind_eq_ok.mp h
  cases h
  exact (hs.cons hnewer rfl rfl (authors_coherent hauthors) hclean).invalidate

/-! ## Update -/

theorem State.Inv.update {s s' : State} {expirationDate : Int → Int} {pk author : Nat} {criteria : List Nat}
    (hs : s.Inv) (h : s.update expirationDate s.clock pk author criteria = .ok s') : s'.Inv := by
  unfold State.update at h
  split at h
  · cases h
  · rename_i d hfind
    split at h
    · cases h
    · rename_i hvalid
      cases h
      have hd : d ∈ s.diagnoses := List.mem_of_find?_eq_some hfind
      have hdpk : d.pk = pk := by simpa using List.find?_some hfind
      have hrow : ∀ e ∈ s.diagnoses, e.pk = pk → e = d := fun e he hpk =>
        List.inj_on_of_nodup_map hs.pks he hd (hpk.trans hdpk.symm)
      let renewed : GeiqEligibilityDiagnosis := { d with
        author, expiresAt := expirationDate s.clock.date, administrativeCriteria := criteria }
      have hmapped : State.Inv { s with
          diagnoses := s.diagnoses.map fun e => if e.pk = pk then renewed else e } := by
        refine hs.map le_rfl rfl rfl (fun e he => ?_) fun e he hve => ?_
        · split
          · rename_i hpk
            rw [hrow e he hpk]
            exact ⟨rfl, rfl, rfl, rfl, rfl⟩
          · exact ⟨rfl, rfl, rfl, rfl, rfl⟩
        · split at hve
          · rename_i hpk
            rw [hrow e he hpk]
            simpa using hvalid
          · exact hve
      exact hmapped.invalidate

/-! ## Steps -/

theorem State.Inv.step {s s' : State} {expirationDate : Int → Int} {label : DateTime × Action} (hs : s.Inv)
    (h : s.step expirationDate label = some s') : s'.Inv := by
  obtain ⟨now, action⟩ := label
  simp only [State.step, Option.ite_none_right_eq_some] at h
  obtain ⟨hclock, h⟩ := h
  -- Time goes by first: what is valid now was valid at the last step.
  have hnow : ∀ applications, State.Inv { s with clock := now, jobApplications := applications } :=
    fun _ => hs.map hclock.le rfl (List.map_id' _).symm (fun _ _ => ⟨rfl, rfl, rfl, rfl, rfl⟩)
      fun _ _ hvalid => GeiqEligibilityDiagnosis.isValid_of_le (DateTime.date_le_of_le hclock.le) hvalid
  cases action with
  | create args =>
      exact (hnow s.jobApplications).create (fun e he => lt_of_le_of_lt (hs.created e he) hclock)
        (toOption_eq_some.mp h)
  | update pk author criteria => exact (hnow s.jobApplications).update (toOption_eq_some.mp h)
  | attach jobApplication diagnosis => cases h; exact hnow _
  | detach jobApplication => cases h; exact hnow _
  | wait => cases h; exact hnow _

/-! ## The query -/

/-- Under the invariant, the current diagnosis is a prescriber's as soon as one of these is valid. -/
theorem State.Inv.head_byPrescriber {s : State} {jobSeeker geiq : Nat} {p : GeiqEligibilityDiagnosis}
    (hs : s.Inv) (hp : p ∈ s.diagnoses) (hby : p.ByPrescriber s.clock.date jobSeeker) :
    ∃ d, (s.validDiagnosesFor s.clock.date jobSeeker (some geiq)).head? = some d ∧
      d.authorPrescriberOrganization.isSome = true := by
  obtain ⟨hvalid, hjs, horganization⟩ := hby
  have hmem : p ∈ s.validDiagnosesFor s.clock.date jobSeeker (some geiq) :=
    mem_validDiagnosesFor.mpr ⟨hp, hvalid, hjs, by
      simp [GeiqEligibilityDiagnosis.authoredByPrescriberOrGeiq, horganization]⟩
  obtain ⟨d, hd⟩ := Option.isSome_iff_exists.mp (List.isSome_head?.mpr (List.ne_nil_of_mem hmem))
  refine ⟨d, hd, ?_⟩
  obtain ⟨hmemd, hvalidd, hjsd, _⟩ := mem_validDiagnosesFor.mp (List.mem_of_head? hd)
  have hle : p.createdAt ≤ d.createdAt :=
    le_of_head?_orderByDesc hd (mem_orderByDesc.mp hmem)
  by_contra hnot
  have hgeiq : d.authorGeiq.isSome = true := by rw [hs.authors d hmemd]; simpa using hnot
  exact absurd (hs.older p hp d hmemd (hjs.trans hjsd.symm) horganization hgeiq hvalid hvalidd) (not_lt.mpr hle)

end Itou.Eligibility
