import Itou.Nexus.Sync

/-!
# What the steps do to the table of a resource

An identifier tells the service and the identifier that the service gives. So a page of a service replaces rows of this
service only, and each of them as a whole.

Whether its page is accepted or not, a step keeps the invariant and leaves the other services alone. The page is accepted
exactly when it is orderly.

Since the start of a run, the rows of the service that date from it are those last sent. The threshold that the completion
sets shows them, and no others. A run that was started before another one does not complete any more.
-/

namespace Itou.Nexus

open Itou.Lib

/-! ## Pages in the table of a resource -/

theorem serviceId_injective {s s' : Service} {a b : Text} (h : serviceId s a = serviceId s' b) : s = s' ∧ a = b := by
  have hs : s = s' := by
    cases s <;> cases s' <;> first | rfl | simp [serviceId, serviceMapping] at h
  subst hs
  exact ⟨rfl, List.append_cancel_left h⟩

namespace Resource

variable {ρ κ : Type} (m : Resource ρ κ)

/-- The rows have the identifiers that their columns give, and the instants that the clocks have reached. -/
def Sound (clock : Service → Nat) (rows : List ρ) : Prop :=
  ∀ r ∈ rows, m.pk r = serviceId (m.source r) (m.sourceId r) ∧ m.updatedAt r ≤ clock (m.source r)

/-- The rows of the service that date from `t` or later are those last sent. -/
def Fresh (service : Service) (t : Nat) (rows : List ρ) (pages : List (List ρ)) : Prop :=
  ∀ r, r ∈ rows ∧ m.source r = service ∧ t ≤ m.updatedAt r ↔ LastSent m.pk pages r

variable {m} {clock clock' : Service → Nat} {service : Service} {t : Nat} {rows rows' page : List ρ}
  {pages : List (List ρ)} {r s : ρ}

theorem Sound.mono (h : m.Sound clock rows) (hle : ∀ s, clock s ≤ clock' s) : m.Sound clock' rows :=
  fun r hr => ⟨(h r hr).1, Nat.le_trans (h r hr).2 (hle _)⟩

theorem Sound.filter {p : ρ → Bool} (h : m.Sound clock rows) : m.Sound clock (rows.filter p) :=
  fun r hr => h r (List.mem_filter.mp hr).1

/-- Rows under one identifier are of one service. -/
theorem source_of_pk (hrows : m.Sound clock rows) (hpage : m.Sound clock' page) (hs : s ∈ rows) (hr : r ∈ page)
    (h : m.pk s = m.pk r) : m.source s = m.source r ∧ m.sourceId s = m.sourceId r :=
  serviceId_injective (by rw [← (hrows s hs).1, ← (hpage r hr).1, h])

theorem update_of_sound (hrows : m.Sound clock rows) (hpage : m.Sound clock' page) :
    ∀ s ∈ rows, ∀ r ∈ page, m.pk s = m.pk r → m.update s r = r := by
  intro s hs r hr h
  obtain ⟨hsource, hid⟩ := source_of_pk hrows hpage hs hr h
  exact m.update_eq s r h hsource hid

/-- The rows of the service are the same. -/
theorem Fresh.congr (hfresh : m.Fresh service t rows pages) (h : ∀ r, m.source r = service → (r ∈ rows' ↔ r ∈ rows)) :
    m.Fresh service t rows' pages := by
  intro r
  rw [← hfresh r]
  constructor
  · rintro ⟨hmem, hsource, ht⟩
    exact ⟨(h r hsource).mp hmem, hsource, ht⟩
  · rintro ⟨hmem, hsource, ht⟩
    exact ⟨(h r hsource).mpr hmem, hsource, ht⟩

/-- Nothing was sent yet. -/
theorem fresh_nil (hrows : m.Sound clock rows) (h : clock service < t) : m.Fresh service t rows [] := by
  intro r
  refine iff_of_false ?_ not_lastSent_nil
  rintro ⟨hmem, rfl, ht⟩
  exact absurd (Nat.le_trans ht (hrows r hmem).2) (Nat.not_le.mpr h)

variable [DecidableEq κ]

theorem mem_upsert_of_sound (hrows : m.Sound clock rows) (hpage : m.Sound clock' page)
    (h : m.upsert rows page = some rows') : r ∈ rows' ↔ r ∈ page ∨ r ∈ rows ∧ ∀ s ∈ page, m.pk r ≠ m.pk s :=
  Upsert.mem_upsert h (update_of_sound hrows hpage)

theorem Sound.upsert (hrows : m.Sound clock rows) (hpage : m.Sound clock page)
    (h : m.upsert rows page = some rows') : m.Sound clock rows' := by
  intro r hr
  rcases (mem_upsert_of_sound hrows hpage h).mp hr with hr | ⟨hr, -⟩
  · exact hpage r hr
  · exact hrows r hr

/-- A page leaves the rows of the other services as they are. -/
theorem mem_upsert_elsewhere (hrows : m.Sound clock rows) (hpage : m.Sound clock' page)
    (hservice : ∀ s ∈ page, m.source s = service) (h : m.upsert rows page = some rows')
    (hr : m.source r ≠ service) : r ∈ rows' ↔ r ∈ rows := by
  rw [mem_upsert_of_sound hrows hpage h]
  constructor
  · rintro (hmem | ⟨hmem, -⟩)
    · exact absurd (hservice r hmem) hr
    · exact hmem
  · intro hmem
    refine Or.inr ⟨hmem, fun s hs heq => hr ?_⟩
    rw [(source_of_pk hrows hpage hmem hs heq).1, hservice s hs]

/-- A page of the service adds to what was last sent. -/
theorem Fresh.upsert (hfresh : m.Fresh service t rows pages) (hrows : m.Sound clock rows)
    (hpage : m.Sound clock' page) (hnew : ∀ s ∈ page, m.source s = service ∧ t ≤ m.updatedAt s)
    (h : m.upsert rows page = some rows') : m.Fresh service t rows' (pages ++ [page]) := by
  intro r
  rw [lastSent_concat, ← hfresh r, mem_upsert_of_sound hrows hpage h]
  constructor
  · rintro ⟨hmem | ⟨hmem, hpks⟩, hr⟩
    · exact Or.inl hmem
    · exact Or.inr ⟨⟨hmem, hr⟩, hpks⟩
  · rintro (hmem | ⟨⟨hmem, hr⟩, hpks⟩)
    · exact ⟨Or.inl hmem, hnew r hmem⟩
    · exact ⟨Or.inr ⟨hmem, hpks⟩, hr⟩

end Resource

/-! ## Pages of a service -/

/-- Rows built from what the service sends, with the instants at which they are. -/
structure Resource.Builds {ρ κ δ : Type} (m : Resource ρ κ) (service : Service) (build : δ × Nat → ρ) : Prop where
  pk : ∀ data, m.pk (build data) = serviceId service (m.sourceId (build data))
  source : ∀ data, m.source (build data) = service
  updatedAt : ∀ data, m.updatedAt (build data) = data.2

theorem builds_users (env : Env) (service : Service) : (nexusUser env).Builds service (buildUser env service) :=
  ⟨fun _ => rfl, fun _ => rfl, fun _ => rfl⟩

theorem builds_structures (env : Env) (service : Service) : nexusStructure.Builds service (buildStructure env service) :=
  ⟨fun _ => rfl, fun _ => rfl, fun _ => rfl⟩

theorem builds_memberships (service : Service) : nexusMembership.Builds service (buildMembership service) :=
  ⟨fun _ => rfl, fun _ => rfl, fun _ => rfl⟩

section Builds

variable {ρ κ δ : Type} {m : Resource ρ κ} {service : Service} {build : δ × Nat → ρ} {page : List (δ × Nat)} {r : ρ}

theorem Resource.Builds.sound {clock : Service → Nat} (hbuild : m.Builds service build)
    (h : ∀ t ∈ page.map (·.2), t ≤ clock service) : m.Sound clock (page.map build) := by
  intro r hr
  obtain ⟨data, hdata, rfl⟩ := List.mem_map.mp hr
  rw [hbuild.pk, hbuild.source, hbuild.updatedAt]
  exact ⟨rfl, h data.2 (List.mem_map_of_mem hdata)⟩

theorem Resource.Builds.new {t : Nat} (hbuild : m.Builds service build) (h : ∀ u ∈ page.map (·.2), t ≤ u) :
    ∀ r ∈ page.map build, m.source r = service ∧ t ≤ m.updatedAt r := by
  intro r hr
  obtain ⟨data, hdata, rfl⟩ := List.mem_map.mp hr
  rw [hbuild.source, hbuild.updatedAt]
  exact ⟨rfl, h data.2 (List.mem_map_of_mem hdata)⟩

end Builds

variable {env : Env} {σ σ' τ : State} {label : Label} {service : Service}

/-! ## The clock -/

theorem le_foldl_max (instants : List Nat) (now : Nat) :
    now ≤ instants.foldl max now ∧ ∀ t ∈ instants, t ≤ instants.foldl max now := by
  induction instants generalizing now with
  | nil => exact ⟨Nat.le_refl now, fun t ht => absurd ht List.not_mem_nil⟩
  | cons instant instants ih =>
      obtain ⟨hinit, hmem⟩ := ih (max now instant)
      refine ⟨Nat.le_trans (Nat.le_max_left now instant) hinit, fun t ht => ?_⟩
      rcases List.mem_cons.mp ht with rfl | ht
      · exact Nat.le_trans (Nat.le_max_right now t) hinit
      · exact hmem t ht

/-- The clock moves on to the instants of the step, and nothing else changes. -/
structure Ticks (service : Service) (instants : List Nat) (σ τ : State) : Prop where
  eq : τ = { σ with clock := τ.clock }
  le : ∀ s, σ.clock s ≤ τ.clock s
  instants : ∀ t ∈ instants, σ.clock service ≤ t ∧ t ≤ τ.clock service

theorem ticks_of_tick {instants : List Nat} (h : σ.tick service instants = some τ) : Ticks service instants σ τ := by
  simp only [State.tick, Option.ite_none_right_eq_some, Option.some.injEq] at h
  obtain ⟨hle, rfl⟩ := h
  obtain ⟨hinit, hmem⟩ := le_foldl_max instants (σ.clock service)
  refine ⟨rfl, fun s => ?_, fun t ht => ⟨hle t ht, ?_⟩⟩
  · rcases eq_or_ne s service with rfl | hs
    · simpa using hinit
    · simp [Function.update_of_ne hs]
  · simpa using hmem t ht

/-- A step moves the clock and sends its page, which changes nothing when it is refused. -/
theorem step_eq_some (h : σ.step env label = some σ') : ∃ τ, Ticks label.service label.instants σ τ ∧
    (τ.sync env label = some σ' ∨ τ.sync env label = none ∧ σ' = τ) := by
  obtain ⟨τ, htick, rfl⟩ := Option.map_eq_some_iff.mp h
  refine ⟨τ, ticks_of_tick htick, ?_⟩
  cases τ.sync env label with
  | none => exact Or.inr ⟨rfl, rfl⟩
  | some τ' => exact Or.inl rfl

/-! ## The invariant -/

structure State.Inv (env : Env) (σ : State) : Prop where
  users : (nexusUser env).Sound σ.clock σ.users
  structures : nexusStructure.Sound σ.clock σ.structures
  memberships : nexusMembership.Sound σ.clock σ.memberships
  started : ∀ s, ∀ status ∈ σ.statuses s, ∀ t ∈ status.inProgressSince, t ≤ σ.clock s

theorem inv_empty (env : Env) : State.empty.Inv env :=
  ⟨fun _ h => absurd h List.not_mem_nil, fun _ h => absurd h List.not_mem_nil, fun _ h => absurd h List.not_mem_nil,
    fun _ _ h => by cases h⟩

theorem Ticks.inv {instants : List Nat} (h : Ticks service instants σ τ) (hinv : σ.Inv env) : τ.Inv env := by
  rw [h.eq]
  exact ⟨hinv.users.mono h.le, hinv.structures.mono h.le, hinv.memberships.mono h.le,
    fun s status hstatus t ht => Nat.le_trans (hinv.started s status hstatus t ht) (h.le s)⟩

/-- The status of one service is written. -/
theorem inv_update (hinv : σ.Inv env) {status : NexusRessourceSyncStatus}
    (h : ∀ t ∈ status.inProgressSince, t ≤ σ.clock service) :
    ({ σ with statuses := Function.update σ.statuses service (some status) } : State).Inv env := by
  refine ⟨hinv.users, hinv.structures, hinv.memberships, fun s old hold t ht => ?_⟩
  rcases eq_or_ne s service with rfl | hs
  · simp only [Function.update_self, Option.mem_some_iff] at hold
    exact h t (hold ▸ ht)
  · simp only [Function.update_of_ne hs] at hold
    exact hinv.started s old hold t ht

theorem inv_sync (hinv : τ.Inv env) (hinstants : ∀ t ∈ label.instants, t ≤ τ.clock label.service)
    (h : τ.sync env label = some σ') : σ'.Inv env := by
  cases label with
  | initFullSync service now =>
      cases h
      refine inv_update hinv fun t ht => ?_
      obtain rfl := Option.some.inj ht
      exact hinstants now (List.mem_singleton.mpr rfl)
  | syncUsers service page =>
      obtain ⟨users, husers, rfl⟩ := Option.map_eq_some_iff.mp h
      exact ⟨hinv.users.upsert ((builds_users env service).sound hinstants) husers, hinv.structures, hinv.memberships,
        hinv.started⟩
  | syncStructures service page =>
      obtain ⟨structures, hstructures, rfl⟩ := Option.map_eq_some_iff.mp h
      exact ⟨hinv.users, hinv.structures.upsert ((builds_structures env service).sound hinstants) hstructures,
        hinv.memberships, hinv.started⟩
  | syncMemberships service page =>
      obtain ⟨memberships, hmemberships, rfl⟩ := Option.map_eq_some_iff.mp h
      exact ⟨hinv.users, hinv.structures,
        hinv.memberships.upsert ((builds_memberships service).sound hinstants).filter hmemberships, hinv.started⟩
  | completeFullSync service startedAt =>
      cases h
      unfold State.completeFullSync
      split
      · exact inv_update hinv fun t ht => by cases ht
      · exact hinv
  | readThreshold service annotated =>
      cases h
      exact hinv

theorem inv_step (hinv : σ.Inv env) (h : σ.step env label = some σ') : σ'.Inv env := by
  obtain ⟨τ, hticks, hsync | ⟨-, rfl⟩⟩ := step_eq_some h
  · exact inv_sync (hticks.inv hinv) (fun t ht => (hticks.instants t ht).2) hsync
  · exact hticks.inv hinv

/-! ## The other services -/

theorem SameElsewhere.refl (service : Service) (σ : State) : SameElsewhere service σ σ :=
  ⟨fun _ _ => Iff.rfl, fun _ _ => Iff.rfl, fun _ _ => Iff.rfl, fun _ _ => rfl⟩

theorem sameElsewhere_update {status : NexusRessourceSyncStatus} : SameElsewhere service σ
    { σ with statuses := Function.update σ.statuses service (some status) } :=
  ⟨fun _ _ => Iff.rfl, fun _ _ => Iff.rfl, fun _ _ => Iff.rfl, fun _ hs => Function.update_of_ne hs _ _⟩

theorem sameElsewhere_sync (hinv : τ.Inv env) (hinstants : ∀ t ∈ label.instants, t ≤ τ.clock label.service)
    (h : τ.sync env label = some σ') : SameElsewhere label.service τ σ' := by
  cases label with
  | initFullSync service now =>
      cases h
      exact sameElsewhere_update
  | syncUsers service page =>
      obtain ⟨users, husers, rfl⟩ := Option.map_eq_some_iff.mp h
      have hbuild := builds_users env service
      exact ⟨fun r => Resource.mem_upsert_elsewhere hinv.users (hbuild.sound hinstants)
          (fun s hs => (hbuild.new (fun _ _ => Nat.zero_le _) s hs).1) husers,
        fun _ _ => Iff.rfl, fun _ _ => Iff.rfl, fun _ _ => rfl⟩
  | syncStructures service page =>
      obtain ⟨structures, hstructures, rfl⟩ := Option.map_eq_some_iff.mp h
      have hbuild := builds_structures env service
      exact ⟨fun _ _ => Iff.rfl, fun r => Resource.mem_upsert_elsewhere hinv.structures (hbuild.sound hinstants)
          (fun s hs => (hbuild.new (fun _ _ => Nat.zero_le _) s hs).1) hstructures,
        fun _ _ => Iff.rfl, fun _ _ => rfl⟩
  | syncMemberships service page =>
      obtain ⟨memberships, hmemberships, rfl⟩ := Option.map_eq_some_iff.mp h
      have hbuild := builds_memberships service
      exact ⟨fun _ _ => Iff.rfl, fun _ _ => Iff.rfl,
        fun r => Resource.mem_upsert_elsewhere hinv.memberships (hbuild.sound hinstants).filter
          (fun s hs => (hbuild.new (fun _ _ => Nat.zero_le _) s (List.mem_filter.mp hs).1).1) hmemberships,
        fun _ _ => rfl⟩
  | completeFullSync service startedAt =>
      cases h
      unfold State.completeFullSync
      split
      · exact sameElsewhere_update
      · exact SameElsewhere.refl service τ
  | readThreshold service annotated =>
      cases h
      exact SameElsewhere.refl service _

theorem leavesOthers (hinv : σ.Inv env) : σ.LeavesOthers env label := by
  intro σ' hσ'
  obtain ⟨τ, hticks, hsync | ⟨-, rfl⟩⟩ := step_eq_some hσ'
  · have hsame := sameElsewhere_sync (hticks.inv hinv) (fun t ht => (hticks.instants t ht).2) hsync
    rw [hticks.eq] at hsame
    exact ⟨hsame.users, hsame.structures, hsame.memberships, hsame.statuses⟩
  · rw [hticks.eq]
    exact ⟨fun _ _ => Iff.rfl, fun _ _ => Iff.rfl, fun _ _ => Iff.rfl, fun _ _ => rfl⟩

/-! ## Pages that are accepted -/

theorem filter_isKnown {page : List (MembershipData × Nat)}
    (h : ∀ data ∈ page, σ.IsKnown env (buildMembership service data)) :
    (page.map (buildMembership service)).filter (σ.IsKnown env ·) = page.map (buildMembership service) := by
  rw [List.filter_eq_self]
  intro r hr
  obtain ⟨data, hdata, rfl⟩ := List.mem_map.mp hr
  exact decide_eq_true (h data hdata)

/-- A careful step has its page accepted. -/
theorem accepts_of_careful (hinv : σ.Inv env) (h : σ.Careful env label) : σ.Accepts env label := by
  intro τ hτ
  have hticks := ticks_of_tick hτ
  have hinv' := hticks.inv hinv
  have hinstants : ∀ t ∈ label.instants, t ≤ τ.clock label.service := fun t ht => (hticks.instants t ht).2
  rw [hticks.eq] at hinv' hinstants ⊢
  cases label with
  | initFullSync service now => rfl
  | syncUsers service page =>
      rw [State.sync, State.syncUsers, Option.isSome_map, Upsert.upsert_isSome_iff
        (Resource.update_of_sound hinv'.users ((builds_users env service).sound hinstants))]
      exact h
  | syncStructures service page =>
      rw [State.sync, State.syncStructures, Option.isSome_map, Upsert.upsert_isSome_iff
        (Resource.update_of_sound hinv'.structures ((builds_structures env service).sound hinstants))]
      exact h
  | syncMemberships service page =>
      obtain ⟨hknown, hpage⟩ := h
      replace hknown : ∀ data ∈ page, ({ σ with clock := τ.clock } : State).IsKnown env
        (buildMembership service data) := hknown
      rw [State.sync, State.syncMemberships, Option.isSome_map, filter_isKnown hknown, Upsert.upsert_isSome_iff
        (Resource.update_of_sound hinv'.memberships ((builds_memberships service).sound hinstants))]
      exact hpage
  | completeFullSync service startedAt => rfl
  | readThreshold service annotated => rfl

/-- The property gives the annotation exactly when the instance has it, or the service has no status. -/
theorem thresholdRight_iff {annotated : Bool} : σ.ThresholdRight (.readThreshold service annotated) ↔
    annotated = true ∨ σ.statuses service = none := by
  simp only [State.ThresholdRight, State.thresholdProperty, State.threshold]
  cases annotated with
  | true => simp
  | false =>
      cases σ.statuses service with
      | none => simp
      | some status => simp

variable {labels : List Label} {t : Nat}

/-! ## Rows since the start -/

/-- The rows of the service that date from `t` or later are those last sent by the steps. -/
structure FreshSince (env : Env) (service : Service) (t : Nat) (σ : State) (labels : List Label) : Prop where
  clock : t ≤ σ.clock service
  users : (nexusUser env).Fresh service t σ.users (labels.flatMap (·.users env service))
  structures : nexusStructure.Fresh service t σ.structures (labels.flatMap (·.structures env service))
  memberships : nexusMembership.Fresh service t σ.memberships (labels.flatMap (·.memberships service))

/-- A page counts when it is one of the service. -/
theorem fresh_page {ρ κ δ : Type} [DecidableEq κ] {m : Resource ρ κ} {s : Service} {build : δ × Nat → ρ}
    {page : List (δ × Nat)} {clock : Service → Nat} {rows rows' : List ρ} {pages : List (List ρ)}
    (hbuild : m.Builds s build) (hfresh : m.Fresh service t rows pages) (hrows : m.Sound clock rows)
    (hold : ∀ u ∈ page.map (·.2), u ≤ clock s) (hnew : s = service → ∀ u ∈ page.map (·.2), t ≤ u)
    (h : m.upsert rows (page.map build) = some rows') :
    m.Fresh service t rows' (pages ++ if s = service then [page.map build] else []) := by
  have hpage := hbuild.sound hold
  split
  · rename_i heq
    subst heq
    exact hfresh.upsert hrows hpage (hbuild.new (hnew rfl)) h
  · rename_i hne
    rw [List.append_nil]
    refine hfresh.congr fun r hr => ?_
    exact Resource.mem_upsert_elsewhere hrows hpage (fun s hs => (hbuild.new (fun _ _ => Nat.zero_le _) s hs).1) h
      fun heq => hne (heq.symm.trans hr)

theorem clock_sync (h : τ.sync env label = some σ') : σ'.clock = τ.clock := by
  cases label with
  | initFullSync service now =>
      cases h
      rfl
  | syncUsers service page =>
      obtain ⟨users, -, rfl⟩ := Option.map_eq_some_iff.mp h
      rfl
  | syncStructures service page =>
      obtain ⟨structures, -, rfl⟩ := Option.map_eq_some_iff.mp h
      rfl
  | syncMemberships service page =>
      obtain ⟨memberships, -, rfl⟩ := Option.map_eq_some_iff.mp h
      rfl
  | completeFullSync service startedAt =>
      cases h
      unfold State.completeFullSync
      split <;> rfl
  | readThreshold service annotated =>
      cases h
      rfl

/-- A careful step sends its page. -/
theorem sync_of_careful (hinv : σ.Inv env) (hcareful : σ.Careful env label) (h : σ.step env label = some σ') :
    ∃ τ, Ticks label.service label.instants σ τ ∧ τ.sync env label = some σ' := by
  obtain ⟨τ, htick, rfl⟩ := Option.map_eq_some_iff.mp h
  obtain ⟨τ', hτ'⟩ := Option.isSome_iff_exists.mp (accepts_of_careful hinv hcareful τ htick)
  exact ⟨τ, ticks_of_tick htick, by rw [hτ', Option.getD_some]⟩

theorem freshSince_concat (hclock : t ≤ σ.clock service)
    (husers : (nexusUser env).Fresh service t σ.users
      (labels.flatMap (·.users env service) ++ label.users env service))
    (hstructures : nexusStructure.Fresh service t σ.structures
      (labels.flatMap (·.structures env service) ++ label.structures env service))
    (hmemberships : nexusMembership.Fresh service t σ.memberships
      (labels.flatMap (·.memberships service) ++ label.memberships service)) :
    FreshSince env service t σ (labels ++ [label]) := by
  refine ⟨hclock, ?_, ?_, ?_⟩ <;> rw [List.flatMap_append, List.flatMap_singleton] <;> assumption

/-- A step of the service that sends a page adds it to what was last sent, and the others do not count. -/
theorem freshSince_sync (hfresh : FreshSince env service t τ labels) (hinv : τ.Inv env)
    (hknown : ∀ s page, label = .syncMemberships s page → ∀ data ∈ page, τ.IsKnown env (buildMembership s data))
    (hold : ∀ u ∈ label.instants, u ≤ τ.clock label.service)
    (hnew : label.service = service → ∀ u ∈ label.instants, t ≤ u) (h : τ.sync env label = some σ') :
    FreshSince env service t σ' (labels ++ [label]) := by
  have hclock : t ≤ σ'.clock service := clock_sync h ▸ hfresh.clock
  have husers := hfresh.users
  have hstructures := hfresh.structures
  have hmemberships := hfresh.memberships
  rw [← List.append_nil (labels.flatMap _)] at husers hstructures hmemberships
  cases label with
  | initFullSync s now =>
      cases h
      exact freshSince_concat hclock husers hstructures hmemberships
  | syncUsers s page =>
      obtain ⟨users, hrows, rfl⟩ := Option.map_eq_some_iff.mp h
      exact freshSince_concat hclock
        (fresh_page (builds_users env s) hfresh.users hinv.users hold hnew hrows) hstructures hmemberships
  | syncStructures s page =>
      obtain ⟨structures, hrows, rfl⟩ := Option.map_eq_some_iff.mp h
      exact freshSince_concat hclock husers
        (fresh_page (builds_structures env s) hfresh.structures hinv.structures hold hnew hrows) hmemberships
  | syncMemberships s page =>
      obtain ⟨memberships, hrows, rfl⟩ := Option.map_eq_some_iff.mp h
      rw [filter_isKnown (hknown s page rfl)] at hrows
      exact freshSince_concat hclock husers hstructures
        (fresh_page (builds_memberships s) hfresh.memberships hinv.memberships hold hnew hrows)
  | completeFullSync s startedAt =>
      cases h
      unfold State.completeFullSync
      split <;> exact freshSince_concat hfresh.clock husers hstructures hmemberships
  | readThreshold s annotated =>
      cases h
      exact freshSince_concat hclock husers hstructures hmemberships

theorem freshSince_step (hfresh : FreshSince env service t σ labels) (hinv : σ.Inv env)
    (hcareful : σ.Careful env label) (h : σ.step env label = some σ') :
    FreshSince env service t σ' (labels ++ [label]) := by
  obtain ⟨τ, hticks, hsync⟩ := sync_of_careful hinv hcareful h
  refine freshSince_sync ?_ (hticks.inv hinv) ?_ (fun u hu => (hticks.instants u hu).2) ?_ hsync
  · rw [hticks.eq]
    exact ⟨Nat.le_trans hfresh.clock (hticks.le service), hfresh.users, hfresh.structures, hfresh.memberships⟩
  · rintro s page rfl
    rw [hticks.eq]
    exact hcareful.1
  · rintro rfl u hu
    exact Nat.le_trans hfresh.clock (hticks.instants u hu).1

/-- The start of a run, after which nothing was sent yet. -/
theorem freshSince_initFullSync (hinv : σ.Inv env) (hnow : σ.clock service < t)
    (h : σ.step env (.initFullSync service t) = some σ') : FreshSince env service t σ' [] := by
  obtain ⟨τ, hticks, hsync⟩ := sync_of_careful hinv (show σ.Careful env (.initFullSync service t) from hnow) h
  have hclock : t ≤ τ.clock service := (hticks.instants t (List.mem_singleton.mpr rfl)).2
  cases hsync
  rw [hticks.eq]
  exact ⟨hclock, Resource.fresh_nil hinv.users hnow, Resource.fresh_nil hinv.structures hnow,
    Resource.fresh_nil hinv.memberships hnow⟩

/-- Over careful steps. -/
theorem freshSince_run {labels' : List Label} (hfresh : FreshSince env service t σ labels) (hinv : σ.Inv env)
    (hcareful : AllSteps (State.step env) (State.Careful env) σ labels')
    (h : run (State.step env) σ labels' = some σ') : FreshSince env service t σ' (labels ++ labels') := by
  induction labels' generalizing σ labels with
  | nil =>
      cases h
      rwa [List.append_nil]
  | cons label labels' ih =>
      obtain ⟨τ, hstep, h⟩ := Option.bind_eq_some_iff.mp h
      simp only [AllSteps, hstep] at hcareful
      rw [List.append_cons]
      exact ih (freshSince_step hfresh hinv hcareful.1 hstep) (inv_step hinv hstep) hcareful.2 h

/-! ## Completions -/

/-- The threshold of the completion shows the rows that date from the start. -/
theorem mem_visible_completeFullSync {ρ κ : Type} {m : Resource ρ κ} {rows : List ρ} {r : ρ}
    (h : σ.completes service t = true) (hr : m.source r = service) :
    r ∈ (σ.completeFullSync service t).visible m rows ↔ r ∈ rows ∧ t ≤ m.updatedAt r := by
  rw [State.visible, List.mem_filter, decide_eq_true_eq, State.completeFullSync, if_pos h, hr, State.threshold]
  simp

theorem visible_iff_lastSent {ρ κ : Type} {m : Resource ρ κ} {rows : List ρ} {pages : List (List ρ)}
    (hfresh : m.Fresh service t rows pages) (h : σ.completes service t = true) (r : ρ) :
    r ∈ (σ.completeFullSync service t).visible m rows ∧ m.source r = service ↔ LastSent m.pk pages r := by
  rw [← hfresh r]
  constructor
  · rintro ⟨hmem, hr⟩
    obtain ⟨hmem, ht⟩ := (mem_visible_completeFullSync h hr).mp hmem
    exact ⟨hmem, hr, ht⟩
  · rintro ⟨hmem, hr, ht⟩
    exact ⟨(mem_visible_completeFullSync h hr).mpr ⟨hmem, ht⟩, hr⟩

/-- A completion shows the rows sent since the start of its run. -/
theorem mirrors_of_completes (hfresh : FreshSince env service t σ labels) (h : σ.completes service t = true) :
    (σ.completeFullSync service t).Mirrors env service labels := by
  have husers : (σ.completeFullSync service t).users = σ.users := by unfold State.completeFullSync; split <;> rfl
  have hstructures : (σ.completeFullSync service t).structures = σ.structures := by
    unfold State.completeFullSync; split <;> rfl
  have hmemberships : (σ.completeFullSync service t).memberships = σ.memberships := by
    unfold State.completeFullSync; split <;> rfl
  refine ⟨fun r => ?_, fun r => ?_, fun r => ?_⟩
  · rw [husers]
    exact visible_iff_lastSent hfresh.users h r
  · rw [hstructures]
    exact visible_iff_lastSent hfresh.structures h r
  · rw [hmemberships]
    exact visible_iff_lastSent hfresh.memberships h r

/-! ## Overlapping runs -/

/-- The run in progress was started at `t` or later, and so will be the next ones. -/
structure State.StartedFrom (σ : State) (service : Service) (t : Nat) : Prop where
  clock : t ≤ σ.clock service
  started : ∀ status ∈ σ.statuses service, ∀ u ∈ status.inProgressSince, t ≤ u

theorem startedFrom_step (hσ : σ.StartedFrom service t) (h : σ.step env label = some σ') :
    σ'.StartedFrom service t := by
  obtain ⟨τ, hticks, hsync⟩ := step_eq_some h
  have hτ : τ.StartedFrom service t := by
    rw [hticks.eq]
    exact ⟨Nat.le_trans hσ.clock (hticks.le service), hσ.started⟩
  rcases hsync with hsync | ⟨-, rfl⟩
  · refine ⟨clock_sync hsync ▸ hτ.clock, ?_⟩
    cases label with
    | initFullSync s now =>
        cases hsync
        intro status hstatus u hu
        rcases eq_or_ne service s with rfl | hs
        · simp only [State.initFullSync, Function.update_self, Option.mem_some_iff] at hstatus
          subst hstatus
          obtain rfl := Option.some.inj hu
          exact Nat.le_trans hσ.clock (hticks.instants now (List.mem_singleton.mpr rfl)).1
        · simp only [State.initFullSync, Function.update_of_ne hs] at hstatus
          exact hτ.started status hstatus u hu
    | syncUsers s page =>
        obtain ⟨users, -, rfl⟩ := Option.map_eq_some_iff.mp hsync
        exact hτ.started
    | syncStructures s page =>
        obtain ⟨structures, -, rfl⟩ := Option.map_eq_some_iff.mp hsync
        exact hτ.started
    | syncMemberships s page =>
        obtain ⟨memberships, -, rfl⟩ := Option.map_eq_some_iff.mp hsync
        exact hτ.started
    | completeFullSync s startedAt =>
        cases hsync
        unfold State.completeFullSync
        split
        · intro status hstatus u hu
          rcases eq_or_ne service s with rfl | hs
          · simp only [Function.update_self, Option.mem_some_iff] at hstatus
            subst hstatus
            cases hu
          · simp only [Function.update_of_ne hs] at hstatus
            exact hτ.started status hstatus u hu
        · exact hτ.started
    | readThreshold s annotated =>
        cases hsync
        exact hτ.started
  · exact hτ

theorem startedFrom_initFullSync (h : σ.step env (.initFullSync service t) = some σ') : σ'.StartedFrom service t := by
  obtain ⟨τ, hticks, hsync | ⟨hnone, -⟩⟩ := step_eq_some h
  · cases hsync
    refine ⟨(hticks.instants t (List.mem_singleton.mpr rfl)).2, fun status hstatus u hu => ?_⟩
    simp only [State.initFullSync, Function.update_self, Option.mem_some_iff] at hstatus
    subst hstatus
    exact Nat.le_of_eq (Option.some.inj hu)
  · cases hnone

/-- A run that was started before `t` does not complete. -/
theorem State.StartedFrom.not_completes {u : Nat} (hσ : σ.StartedFrom service t) (hu : u < t) :
    σ.completes service u = false := by
  rw [State.completes, Option.any_eq_false]
  intro status hstatus
  refine decide_eq_false fun heq => ?_
  exact absurd (hσ.started status hstatus u heq) (Nat.not_le.mpr hu)

end Itou.Nexus
