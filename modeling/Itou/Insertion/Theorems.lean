import Itou.Insertion.Lemmas.RuleOrder
import Itou.Insertion.Lemmas.Memory
import Itou.Insertion.Lemmas.Orientations

/-!
# Theorems on the orientation to services

What earlier runs leave in the database, and what of it a run keeps.

What the page shows of texts in the format of OpenStreetMap.
-/

namespace Itou.Insertion

open Itou.Lib

/-! ## Imports, over any history -/

/-- After two histories, a run with the same answers gives the flags of the answers exactly when, in both databases
before it, what the run keeps says the same as the answers. -/
theorem noMemory_iff {before₁ before₂ : List Run} {answers : Answers} {now₁ now₂ : DateTime} {db₁ db₂ db₁' db₂' : Db}
    (hbefore₁ : run Db.step .empty before₁ = some db₁) (hbefore₂ : run Db.step .empty before₂ = some db₂)
    (hafter₁ : run Db.step .empty (before₁ ++ [⟨ArgumentData.all, answers, now₁⟩]) = some db₁')
    (hafter₂ : run Db.step .empty (before₂ ++ [⟨ArgumentData.all, answers, now₂⟩]) = some db₂') :
    db₁'.NoMemory db₂' answers ↔ db₁.Current answers ∧ db₂.Current answers := by
  rw [← asAnswered_iff (run_concat hbefore₁ hafter₁), ← asAnswered_iff (run_concat hbefore₂ hafter₂)]
  constructor
  · rintro ⟨h₁, h₂, -⟩
    exact ⟨h₁, h₂⟩
  · rintro ⟨h₁, h₂⟩
    exact ⟨h₁, h₂, sameFlags_of_asAnswered h₁ h₂⟩

/-! ### A structure that leaves the disabled list -/

/-- One structure with an e-mail, one service, and a list of disabled structures. -/
def answersWith (disabledDoraFormDiStructures : List DisabledStructure) : Answers where
  docs _ := []
  referenceData := []
  sources := [⟨"mission-locale", "Mission locale", none⟩]
  structurePages := [[⟨"mission-locale--1", "mission-locale", none, some "contact@example.com", 0, none⟩]]
  servicePages := [[⟨"mission-locale--2", "mission-locale", "mission-locale--1", none, none, 0, none, none, none, none,
    none⟩]]
  emploisServices := []
  disabledDoraFormDiStructures

/-- A first run, where the structure is disabled. -/
def disabledRun : Run := ⟨ArgumentData.all, answersWith [⟨"mission-locale", "1"⟩], ⟨0, 0⟩⟩

/-- The next one, where it is not. -/
def enabledRun : Run := ⟨ArgumentData.all, answersWith [], ⟨1, 0⟩⟩

/-- The database after a run. -/
def after (runs : List Run) : Db := (run Db.step .empty runs).getD .empty

theorem noMemory_twice :
    (after [enabledRun]).NoMemory (after [enabledRun, enabledRun]) enabledRun.answers :=
  (@noMemory_iff [] [enabledRun] _ ⟨1, 0⟩ ⟨1, 0⟩ .empty (after [enabledRun]) _ _ rfl rfl rfl rfl).mpr
    ⟨⟨by decide, by decide⟩, ⟨by decide, by decide⟩⟩

theorem not_noMemory :
    run Db.step .empty [enabledRun] = some (after [enabledRun]) ∧
      run Db.step .empty [disabledRun, enabledRun] = some (after [disabledRun, enabledRun]) ∧
      ¬ (after [enabledRun]).NoMemory (after [disabledRun, enabledRun]) enabledRun.answers := by
  refine ⟨rfl, rfl, ?_⟩
  rintro ⟨-, h, -⟩
  exact absurd (h.orientable _ List.mem_cons_self _ rfl) (by decide)

end Itou.Insertion

/-! ## Orientations -/

namespace Itou.Insertion.Orientations

open Itou.Lib

/-- Over any history, a run that has read the latest statuses settles the two sides, and an immediate second run changes
nothing. -/
theorem sync_settles (actions : List Action) :
    AllSteps State.step State.Settles .empty actions ∧ AllStates State.step State.Steady .empty actions :=
  ⟨allSteps_of_allSteps (fun _ _ _ hs _ h => inv_step hs h) (fun _ a _ hs _ _ => settles_of_inv hs a) inv_empty
      (allSteps_of_forall (G := fun _ _ => True) fun _ _ => trivial),
    allStates_of_step (fun _ _ s' _ _ => steady s') (steady .empty)⟩

/-! ### Changes that are not written -/

instance : DecidablePred State.InSync := fun s => inferInstanceAs (Decidable (∀ e ∈ s.dora.entries, _))

instance (s : State) : (a : Action) → Decidable (s.Synchronises a)
  | .write n => inferInstanceAs (Decidable (∀ f ∈ s.runs[n]?, f.latest = true → _))
  | .change _ _ | .create _ _ _ _ | .fetch | .abandon _ => .isTrue trivial

/-- DORA accepts an orientation before it is saved here, nine seconds later. -/
def savedLater : List Action :=
  [.change "o" ⟨.pending, none, 0⟩, .change "o" ⟨.accepted, some 1000000, 1000000⟩, .create "o" .pending none 10000000,
    .fetch, .write 0]

/-- A run reads a change before another one, with an earlier update time, is committed. -/
def committedLater : List Action :=
  [.change "o" ⟨.pending, none, 0⟩, .change "p" ⟨.pending, none, 0⟩, .create "o" .pending none 0,
    .create "p" .pending none 0, .change "p" ⟨.accepted, some 10000000, 10000000⟩, .fetch, .write 0,
    .change "o" ⟨.accepted, some 9000000, 9000000⟩, .fetch, .write 0]

/-- A run writes a status that it read before another run, which has written a newer one, and a later change of another
orientation. -/
def writtenOver : List Action :=
  [.change "o" ⟨.accepted, some 5000000, 5000000⟩, .change "p" ⟨.pending, none, 0⟩, .create "o" .pending none 0,
    .create "p" .pending none 0, .fetch, .change "o" ⟨.rejected, some 6000000, 6000000⟩,
    .change "p" ⟨.accepted, some 20000000, 20000000⟩, .fetch, .write 1, .write 0, .fetch, .write 0]

theorem not_synchronises :
    ¬ AllSteps State.step State.Synchronises .empty savedLater ∧
      ¬ AllSteps State.step State.Synchronises .empty committedLater ∧
        ¬ AllSteps State.step State.Synchronises .empty writtenOver := by
  decide

/-! ### Transition logs -/

/-- Along a run of synchronisations, with any statuses, and of transitions taken here, the logs of each orientation are a
path of the workflow to its status exactly when the synchronisations change orientations that are `PENDING` only. -/
theorem legalLogs_iff_updatesPending (s : State) (hs : s.LegalLogs) (actions : List LogAction) :
    AllStates State.logStep State.LegalLogs s actions ↔ AllSteps State.logStep State.UpdatesPending s actions :=
  allStates_iff_allSteps (J := fun _ => True) (fun _ _ _ _ _ _ => trivial)
    (fun _ _ _ _ hs h => legalLogs_step hs h) trivial hs

/-- An orientation that was just saved. -/
def savedOrientation : State :=
  { State.empty with orientations := AList.singleton "o" ⟨.pending, none, none, 0⟩ }

/-- DORA processes the orientation, then corrects the date. -/
def correctedDate : List LogAction :=
  [.sync (AList.singleton "o" ⟨.accepted, some 5000000, 10000000⟩),
    .sync (AList.singleton "o" ⟨.accepted, some 6000000, 20000000⟩)]

/-- The first answer says nothing new. -/
theorem legalLogs_savedOrientation :
    AllStates State.logStep State.LegalLogs savedOrientation
      [.sync (AList.singleton "o" ⟨.pending, none, 5000000⟩), .take "o" .reject 6000000] :=
  (legalLogs_iff_updatesPending savedOrientation (by decide) _).mpr (by decide)

/-- The log of the correction has equal ends. -/
theorem not_legalLogs_correctedDate :
    savedOrientation.LegalLogs ∧ ¬ AllStates State.logStep State.LegalLogs savedOrientation correctedDate ∧
      ∃ s ∈ run State.logStep savedOrientation correctedDate, ∃ log ∈ s.logsOf "o", log.fromState = log.toState :=
  ⟨by decide, by decide, _, rfl, ⟨"o", .accept, .accepted, .accepted, 20000000⟩, by decide, rfl⟩

end Itou.Insertion.Orientations

/-! ## Opening hours -/

namespace Itou.Insertion.OpeningHours

open Itou.Lib

/-- What the page shows of the text of rules. A rule that says `off` takes no hour back from the other rules. -/
theorem formatOsmHours_text (cls : CharClasses) {rules : List Rule} (h : ∀ r ∈ rules, r.Plain) :
    formatOsmHours cls (text rules) = shown rules := by
  rw [formatOsmHours]
  cases rules with
  | nil => rfl
  | cons r rules =>
      have hne : text (r :: rules) ≠ [] := by
        rw [text_cons]
        exact List.append_ne_nil_of_right_ne_nil _ (List.cons_ne_nil _ _)
      have hbind : (parseOsmHours cls (text (r :: rules)) >>= formatParsed cls) = .ok (shown (r :: rules)) := by
        rw [parseOsmHours_eq h]
        exact formatParsed_meaning _
      rw [if_neg hne, hbind]

/-- Wednesday stays open. -/
theorem formatOsmHours_text_closedOnWednesday :
    ∃ rules, text rules = "Mo-Fr 09:00-12:00 \"Sur rendez-vous\"; We closed, PH closed; ".toList ∧
      formatOsmHours .ascii (text rules) = shown rules ∧ (dayShown rules 2).isSome = true := by
  have hnone {r : Rule} (hcomment : r.comment = none)
      (hcomma : r.ending = .comma →
        r.hours.words.getLast? ∈ [some "open".toList, some "off".toList, some "closed".toList]) : r.Plain := by
    have hall {p : List Char → Prop} : ∀ comment ∈ r.comment, p comment := by
      intro comment hmem
      rw [hcomment] at hmem
      cases hmem
    exact ⟨hall, hall, hall, hall, hall, hcomma⟩
  refine ⟨[⟨.days (.range 0 4) [], .times ⟨(9, 0), (12, 0)⟩ [] false, .semicolon (some "Sur rendez-vous".toList)⟩,
    ⟨.days (.day 2) [], .off true, .comma⟩, ⟨.holidays, .off true, .semicolon none⟩],
    by decide, formatOsmHours_text .ascii ?_, by decide⟩
  rw [List.forall_mem_cons, List.forall_mem_cons, List.forall_mem_singleton]
  refine ⟨⟨?_, ?_, ?_, ?_, ?_, ?_⟩, hnone rfl fun _ => by decide, hnone rfl fun _ => by decide⟩
  · rintro _ ⟨⟩
    decide
  · rintro _ ⟨⟩
    decide
  · rintro _ ⟨⟩ h
    exact absurd (h.subset (List.mem_cons_self (a := 'c'))) (by decide)
  · rintro _ ⟨⟩ h
    exact absurd (h.subset (List.mem_cons_of_mem _ (List.mem_cons_self (a := 'p')))) (by decide)
  · rintro _ ⟨⟩ h
    exact absurd (h.subset (List.mem_cons_of_mem _ (List.mem_cons_self (a := 'f')))) (by decide)
  · intro h
    cases h

/-- Whatever the texts of the rules, their order changes neither the hours shown for each day nor the sentences on the
closed months. -/
theorem formatOsmHours_perm (cls : CharClasses) {rules rules' : List (List Char)} (hperm : rules.Perm rules') :
    Option.Rel SameHours (formatOsmHours cls ([';'].intercalate rules))
      (formatOsmHours cls ([';'].intercalate rules')) := by
  have hnil : [';'].intercalate rules = [] ↔ [';'].intercalate rules' = [] :=
    ⟨intercalate_eq_nil_of_perm hperm, intercalate_eq_nil_of_perm hperm.symm⟩
  have hformatted : Related (Option.Rel SameHours) (parseOsmHours cls ([';'].intercalate rules) >>= formatParsed cls)
      (parseOsmHours cls ([';'].intercalate rules') >>= formatParsed cls) :=
    (parseOsmHours_perm hperm).bind fun _ _ => formatParsed_same
  rw [formatOsmHours, formatOsmHours]
  simp only [hnil]
  split
  · exact .none
  · revert hformatted
    cases parseOsmHours cls ([';'].intercalate rules) >>= formatParsed cls <;>
      cases parseOsmHours cls ([';'].intercalate rules') >>= formatParsed cls
    case error.error => exact fun _ => .none
    case error.ok => exact fun hformatted => hformatted.elim
    case ok.error => exact fun hformatted => hformatted.elim
    case ok.ok => exact id

theorem formatOsmHours_perm_swapped :
    Option.Rel SameHours
      (formatOsmHours .ascii ([';'].intercalate ["Mo 09:00-12:00".toList, "Mo off".toList, "Mo 08:00-09:00".toList]))
      (formatOsmHours .ascii ([';'].intercalate ["Mo off".toList, "Mo 09:00-12:00".toList, "Mo 08:00-09:00".toList])) :=
  formatOsmHours_perm .ascii (.swap _ _ _)

end Itou.Insertion.OpeningHours
