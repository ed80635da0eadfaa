import Itou.Lib.Runs
import Mathlib.Data.List.Nodup
import Mathlib.Logic.Function.Basic

/-!
# Sessions that lock the rows they change

A session locks each row of its query before it reads it, and leaves out a row that no longer matches the query once it
is locked. It then works on its rows one after the other. Its writes become visible together, when it commits, and its
locks are held until then. Which rows a query finds is left open: a session locks any rows, in any order, so that it may
also miss some, or skip those that others hold.
-/

namespace Itou.Lib

universe u

/-- What a session does with one of its rows: a change with its entry in the history, nothing, or a failure. -/
inductive Sessions.Outcome (ρ α : Type u) where
  | done (entry : α) (row : ρ)
  | skipped
  | failed

/-- The sessions `ι`, on rows `ρ` under keys `κ`: the condition of their query, and their work on a row at a time `τ`. -/
structure Sessions (κ ρ ι τ α : Type u) where
  selects : ι → κ → ρ → Bool
  work : ι → τ → ρ → Sessions.Outcome ρ α

namespace Sessions

variable {κ ρ ι τ α : Type u}

/-! ## The system -/

/-- A row that a session has changed and not yet committed. -/
structure Write (κ ρ α : Type u) where
  key : κ
  row : ρ
  entry : α

/-- Where a session is, with the rows as it has read them and what it has written. -/
inductive Phase (κ ρ α : Type u) where
  | locking (rows : List (κ × ρ))
  | working (rows : List (κ × ρ)) (writes : List (Write κ ρ α))
  | committed (done : List (κ × α))
  | rolledBack
  | failed

/-- The rows as they are committed, and the entries of the sessions that have committed, in their order. -/
structure State (κ ρ ι α : Type u) where
  rows : κ → Option ρ
  locks : κ → Option ι
  phase : ι → Phase κ ρ α
  history : List (ι × κ × α)

inductive Label (κ ι τ : Type u) where
  | lock (i : ι) (k : κ)
  | fetched (i : ι)
  | work (i : ι) (now : τ)
  | commit (i : ι)
  | rollback (i : ι)

def State.init (rows : κ → Option ρ) : State κ ρ ι α := ⟨rows, fun _ => none, fun _ => .locking [], []⟩

variable [DecidableEq κ] [DecidableEq ι] (L : Sessions κ ρ ι τ α)

namespace State

def setPhase (s : State κ ρ ι α) (i : ι) (phase : Phase κ ρ α) : State κ ρ ι α :=
  { s with phase := Function.update s.phase i phase }

def lock (s : State κ ρ ι α) (i : ι) (k : κ) : State κ ρ ι α := { s with locks := Function.update s.locks k (some i) }

/-- The locks of a session are released when it ends. -/
def release (s : State κ ρ ι α) (i : ι) : State κ ρ ι α :=
  { s with locks := fun k => if s.locks k = some i then none else s.locks k }

def write (s : State κ ρ ι α) (writes : List (Write κ ρ α)) : State κ ρ ι α :=
  { s with rows := fun k => ((writes.find? (·.key = k)).map Write.row).or (s.rows k) }

def record (s : State κ ρ ι α) (i : ι) (writes : List (Write κ ρ α)) : State κ ρ ι α :=
  { s with history := s.history ++ writes.map fun w => (i, w.key, w.entry) }

end State

/-- A lock that another session holds is waited for: the step cannot be taken. -/
def step (s : State κ ρ ι α) : Label κ ι τ → Option (State κ ρ ι α)
  | .lock i k =>
      match s.phase i, s.locks k, s.rows k with
      | .locking rows, none, some row =>
          if L.selects i k row then
            some ((s.lock i k).setPhase i (.locking (rows ++ [(k, row)])))
          else some s
      | _, _, _ => none
  | .fetched i =>
      match s.phase i with
      | .locking rows => some (s.setPhase i (.working rows []))
      | _ => none
  | .work i now =>
      match s.phase i with
      | .working ((k, row) :: rows) writes =>
          match L.work i now row with
          | .done entry row => some (s.setPhase i (.working rows (writes ++ [⟨k, row, entry⟩])))
          | .skipped => some (s.setPhase i (.working rows writes))
          | .failed => some ((s.release i).setPhase i .failed)
      | _ => none
  | .commit i =>
      match s.phase i with
      | .working [] writes => some ((((s.write writes).record i writes).release i).setPhase i
          (.committed (writes.map fun w => (w.key, w.entry))))
      | _ => none
  | .rollback i =>
      match s.phase i with
      | .locking _ | .working _ _ => some ((s.release i).setPhase i .rolledBack)
      | _ => none

/-! ## One row -/

/-- The entries of one row in a history, each with its session. -/
def entriesOf (k : κ) (history : List (ι × κ × α)) : List (ι × α) :=
  history.filterMap fun e => if e.2.1 = k then some (e.1, e.2.2) else none

/-- One entry of a row after the other: the session selects the row as it then is, and changes it. -/
def replay (change : ρ → α → Option ρ) (k : κ) (row : ρ) (e : ι × α) : Option ρ :=
  if L.selects e.1 k row then change row e.2 else none

/-- What the sessions do to a row that satisfies `P` is a change, which keeps `P`. -/
structure Lawful (change : ρ → α → Option ρ) (P : ρ → Prop) : Prop where
  done : ∀ {i k now row entry row'}, P row → L.selects i k row → L.work i now row = .done entry row' →
    change row entry = some row'
  keeps : ∀ {row entry row'}, P row → change row entry = some row' → P row'
  succeeds : ∀ {i k now row}, P row → L.selects i k row → L.work i now row ≠ .failed

def Phase.todo : Phase κ ρ α → List (κ × ρ)
  | .locking rows => rows
  | .working rows _ => rows
  | _ => []

def Phase.writes : Phase κ ρ α → List (Write κ ρ α)
  | .working _ writes => writes
  | _ => []

/-- The keys of the rows that the session has locked. -/
def Phase.keys (phase : Phase κ ρ α) : List κ := phase.writes.map Write.key ++ phase.todo.map Prod.fst

/-- What a session has reported. -/
def Phase.done : Phase κ ρ α → List (κ × α)
  | .committed done => done
  | _ => []

/-! ## The invariant -/

/-- A session holds the locks of its rows, and a row that is locked is still as its session has read it. -/
structure Inv (change : ρ → α → Option ρ) (P : ρ → Prop) (rows₀ : κ → Option ρ) (s : State κ ρ ι α) : Prop where
  rows : ∀ k row, s.rows k = some row → P row
  replays : ∀ k, (rows₀ k).bind (run (L.replay change k) · (entriesOf k s.history)) = s.rows k
  locked : ∀ i k, k ∈ (s.phase i).keys → s.locks k = some i
  todo : ∀ i k row, (k, row) ∈ (s.phase i).todo → s.rows k = some row ∧ L.selects i k row
  writes : ∀ i w, w ∈ (s.phase i).writes →
    ∃ row, s.rows w.key = some row ∧ L.replay change w.key row (i, w.entry) = some w.row
  nodup : ∀ i, (s.phase i).keys.Nodup
  done : ∀ i, (s.phase i).done = (s.history.filter (·.1 = i)).map Prod.snd
  once : ∀ i, ((s.phase i).done.map Prod.fst).Nodup
  succeeds : ∀ i, s.phase i ≠ .failed

variable {L} {change : ρ → α → Option ρ} {P : ρ → Prop} {rows₀ : κ → Option ρ} {s s' : State κ ρ ι α} {i : ι} {k : κ}

omit [DecidableEq κ] in
theorem State.setPhase_phase (s : State κ ρ ι α) (i j : ι) (phase : Phase κ ρ α) :
    (s.setPhase i phase).phase j = if j = i then phase else s.phase j :=
  Function.update_apply ..

theorem inv_init (hrows : ∀ k row, rows₀ k = some row → P row) :
    L.Inv change P rows₀ (State.init rows₀) where
  rows := hrows
  replays := fun k => Option.bind_fun_some (rows₀ k)
  locked := fun _ _ h => absurd h List.not_mem_nil
  todo := fun _ _ _ h => absurd h List.not_mem_nil
  writes := fun _ _ h => absurd h List.not_mem_nil
  nodup := fun _ => List.nodup_nil
  done := fun _ => rfl
  once := fun _ => List.nodup_nil
  succeeds := fun _ => nofun

/-- A session moves to a phase that says of its rows what the state says. -/
theorem Inv.setPhase (h : L.Inv change P rows₀ s) {phase : Phase κ ρ α}
    (hlocked : ∀ k ∈ phase.keys, s.locks k = some i)
    (htodo : ∀ k row, (k, row) ∈ phase.todo → s.rows k = some row ∧ L.selects i k row)
    (hwrites : ∀ w ∈ phase.writes, ∃ row, s.rows w.key = some row ∧
      L.replay change w.key row (i, w.entry) = some w.row)
    (hnodup : phase.keys.Nodup) (hdone : phase.done = (s.phase i).done) (hsucceeds : phase ≠ .failed) :
    L.Inv change P rows₀ (s.setPhase i phase) := by
  refine ⟨h.rows, h.replays, fun j => ?_, fun j => ?_, fun j => ?_, fun j => ?_, fun j => ?_, fun j => ?_,
    fun j => ?_⟩
  all_goals rw [State.setPhase_phase]; split
  · rename_i hj; subst hj; exact hlocked
  · exact h.locked j
  · rename_i hj; subst hj; exact htodo
  · exact h.todo j
  · rename_i hj; subst hj; exact hwrites
  · exact h.writes j
  · exact hnodup
  · exact h.nodup j
  · rename_i hj; subst hj; exact hdone.trans (h.done j)
  · exact h.done j
  · rename_i hj; subst hj; exact hdone ▸ h.once j
  · exact h.once j
  · exact hsucceeds
  · exact h.succeeds j

/-- A row that is free may be locked by anyone. -/
theorem Inv.lock (h : L.Inv change P rows₀ s) (hfree : s.locks k = none) :
    L.Inv change P rows₀ (s.lock i k) := by
  refine { h with locked := fun j l hl => ?_ }
  have hlocked := h.locked j l hl
  exact (Function.update_of_ne (fun heq => by rw [heq, hfree] at hlocked; cases hlocked) ..).trans hlocked

/-- A session that has no row left may release its locks. -/
theorem Inv.release (h : L.Inv change P rows₀ s) (hkeys : (s.phase i).keys = []) :
    L.Inv change P rows₀ (s.release i) := by
  refine { h with locked := fun j l hl => ?_ }
  have hlocked := h.locked j l hl
  have hne : s.locks l ≠ some i := by
    intro heq
    rw [hlocked, Option.some.injEq] at heq
    subst heq
    exact List.not_mem_nil (hkeys ▸ hl : l ∈ [])
  exact (if_neg hne).trans hlocked

theorem Inv.step_lock (h : L.Inv change P rows₀ s) (hstep : L.step s (.lock i k) = some s') :
    L.Inv change P rows₀ s' := by
  simp only [step] at hstep
  split at hstep
  · rename_i rows row hphase hfree hrow
    split at hstep
    · rename_i hselects
      cases hstep
      have hrows : ∀ l ∈ rows.map Prod.fst, s.locks l = some i := by
        have := h.locked i
        rwa [hphase] at this
      refine (h.lock hfree).setPhase (fun l hl => ?_) (fun l row' hl => ?_) (fun w hw => absurd hw List.not_mem_nil)
        ?_ (show _ = (s.phase i).done by rw [hphase]; rfl) nofun
      · simp only [Phase.keys, Phase.writes, Phase.todo, List.map_nil, List.nil_append, List.map_append, List.map_cons,
          List.mem_append, List.mem_singleton] at hl
        rcases hl with hl | rfl
        · exact (Function.update_of_ne (fun heq => by
            have := hrows l hl
            rw [heq, hfree] at this
            cases this) ..).trans (hrows l hl)
        · exact Function.update_self ..
      · rcases List.mem_append.mp hl with hl | hl
        · exact h.todo i l row' (by rw [hphase]; exact hl)
        · rw [List.mem_singleton, Prod.mk.injEq] at hl
          obtain ⟨rfl, rfl⟩ := hl
          exact ⟨hrow, hselects⟩
      · have hnodup := h.nodup i
        rw [hphase] at hnodup
        simp only [Phase.keys, Phase.writes, Phase.todo, List.map_nil, List.nil_append, List.map_append,
          List.map_cons] at hnodup ⊢
        refine List.nodup_append.mpr ⟨hnodup, List.nodup_singleton _, fun l hl m hm heq => ?_⟩
        rw [List.mem_singleton] at hm
        rw [heq, hm] at hl
        rw [hrows k hl] at hfree
        cases hfree
    · cases hstep
      exact h
  · cases hstep

theorem Inv.step_fetched (h : L.Inv change P rows₀ s) (hstep : L.step s (.fetched i) = some s') :
    L.Inv change P rows₀ s' := by
  simp only [step] at hstep
  split at hstep
  · rename_i rows hphase
    cases hstep
    have hkeys : (Phase.working (α := α) rows []).keys = (s.phase i).keys := by rw [hphase]; rfl
    refine h.setPhase (fun l hl => h.locked i l (hkeys ▸ hl)) (fun l row hl => h.todo i l row (by rwa [hphase]))
      (fun w hw => absurd hw List.not_mem_nil) (hkeys ▸ h.nodup i) (by rw [hphase]; rfl) nofun
  · cases hstep

theorem Inv.step_work (hlawful : L.Lawful change P) (h : L.Inv change P rows₀ s) {now : τ}
    (hstep : L.step s (.work i now) = some s') : L.Inv change P rows₀ s' := by
  simp only [step] at hstep
  split at hstep
  · rename_i k row rows writes hphase
    have hkeys : (s.phase i).keys = writes.map Write.key ++ k :: rows.map Prod.fst := by rw [hphase]; rfl
    have hlocked := h.locked i
    have hnodup := h.nodup i
    rw [hkeys] at hlocked hnodup
    obtain ⟨hrow, hselects⟩ := h.todo i k row (by rw [hphase]; exact List.mem_cons_self)
    have htodo : ∀ l row', (l, row') ∈ rows → s.rows l = some row' ∧ L.selects i l row' :=
      fun l row' hl => h.todo i l row' (by rw [hphase]; exact List.mem_cons_of_mem _ hl)
    have hwrites := h.writes i
    rw [hphase] at hwrites
    split at hstep
    · rename_i entry row' hdone
      cases hstep
      have hperm : (Phase.working rows (writes ++ [⟨k, row', entry⟩])).keys =
          writes.map Write.key ++ k :: rows.map Prod.fst := by
        simp [Phase.keys, Phase.writes, Phase.todo]
      refine h.setPhase (hperm ▸ hlocked) htodo (fun w hw => ?_) (hperm ▸ hnodup) (by rw [hphase]; rfl) nofun
      rcases List.mem_append.mp hw with hw | hw
      · exact hwrites w hw
      · rw [List.mem_singleton.mp hw]
        exact ⟨row, hrow, (if_pos hselects).trans (hlawful.done (h.rows k row hrow) hselects hdone)⟩
    · cases hstep
      refine h.setPhase (fun l hl => hlocked l ?_) htodo hwrites ?_ (by rw [hphase]; rfl) nofun
      · rcases List.mem_append.mp hl with hl | hl
        · exact List.mem_append_left _ hl
        · exact List.mem_append_right _ (List.mem_cons_of_mem _ hl)
      · exact hnodup.sublist ((List.sublist_cons_self k _).append_left _)
    · rename_i hfailed
      exact absurd hfailed (hlawful.succeeds (h.rows k row hrow) hselects)
  · cases hstep

theorem Inv.step_rollback (h : L.Inv change P rows₀ s) (hstep : L.step s (.rollback i) = some s') :
    L.Inv change P rows₀ s' := by
  have hend (hdone : (s.phase i).done = []) : L.Inv change P rows₀ ((s.release i).setPhase i .rolledBack) := by
    have hinv : L.Inv change P rows₀ (s.setPhase i .rolledBack) :=
      h.setPhase (fun _ hl => absurd hl List.not_mem_nil) (fun _ _ hl => absurd hl List.not_mem_nil)
        (fun _ hw => absurd hw List.not_mem_nil) List.nodup_nil hdone.symm nofun
    exact hinv.release (by rw [State.setPhase_phase, if_pos rfl]; rfl)
  simp only [step] at hstep
  split at hstep
  · rename_i hphase
    cases hstep
    exact hend (by rw [hphase]; rfl)
  · rename_i hphase
    cases hstep
    exact hend (by rw [hphase]; rfl)
  · cases hstep

omit [DecidableEq ι] in
theorem entriesOf_append (k : κ) (l l' : List (ι × κ × α)) :
    entriesOf k (l ++ l') = entriesOf k l ++ entriesOf k l' := List.filterMap_append

omit [DecidableEq ι] in
/-- Of the writes of one session, at most one is of a given row. -/
theorem entriesOf_writes (k : κ) {writes : List (Write κ ρ α)} (hnodup : (writes.map Write.key).Nodup) :
    entriesOf k (writes.map fun w => (i, w.key, w.entry)) =
      ((writes.find? (·.key = k)).map fun w => (i, w.entry)).toList := by
  induction writes with
  | nil => rfl
  | cons w writes ih =>
      obtain ⟨hw, hnodup⟩ := List.nodup_cons.mp hnodup
      by_cases hk : w.key = k
      · have hnone : writes.find? (·.key = k) = none := by
          refine List.find?_eq_none.mpr fun w' hw' hk' => hw ?_
          rw [hk, ← of_decide_eq_true hk']
          exact List.mem_map_of_mem hw'
        have htail := ih hnodup
        rw [hnone] at htail
        simp only [entriesOf, List.map_cons, List.filterMap_cons, hk, ↓reduceIte, List.find?_cons, decide_true,
          Option.map_some, Option.toList_some, List.cons.injEq, true_and] at htail ⊢
        exact htail
      · simp only [entriesOf, List.map_cons, List.filterMap_cons, hk, ↓reduceIte, List.find?_cons, decide_false]
        exact ih hnodup

theorem Inv.step_commit (hlawful : L.Lawful change P) (h : L.Inv change P rows₀ s)
    (hstep : L.step s (.commit i) = some s') : L.Inv change P rows₀ s' := by
  simp only [step] at hstep
  split at hstep
  · rename_i writes hphase
    cases hstep
    have hkeys : (s.phase i).keys = writes.map Write.key := by
      rw [hphase]
      exact List.append_nil _
    have hlocked := h.locked i
    have hnodup := h.nodup i
    rw [hkeys] at hlocked hnodup
    have hwrites := h.writes i
    rw [hphase] at hwrites
    -- The rows of the other sessions are not written.
    have hothers : ∀ j k, j ≠ i → s.locks k = some j → (s.write writes).rows k = s.rows k := by
      intro j k hj hk
      have hnone : writes.find? (·.key = k) = none := by
        refine List.find?_eq_none.mpr fun w hw hwk => hj ?_
        have := hlocked w.key (List.mem_map_of_mem hw)
        rw [of_decide_eq_true hwk, hk] at this
        exact Option.some.inj this
      simp only [State.write, hnone, Option.map_none, Option.none_or]
    have hreplays : ∀ k, (rows₀ k).bind (run (L.replay change k) ·
        (entriesOf k ((s.write writes).record i writes).history)) = (s.write writes).rows k := by
      intro k
      simp only [State.record, State.write, entriesOf_append, entriesOf_writes k hnodup, run_append]
      rw [← Option.bind_assoc, h.replays k]
      cases hfind : writes.find? (·.key = k) with
      | none => exact Option.bind_fun_some _
      | some w =>
          obtain ⟨row, hrow, hw⟩ := hwrites w (List.mem_of_find?_eq_some hfind)
          obtain rfl : w.key = k := by simpa using List.find?_some hfind
          rw [hrow]
          exact (Option.bind_some ..).trans ((Option.bind_fun_some _).trans hw)
    have hrows : ∀ k row, (s.write writes).rows k = some row → P row := by
      intro k row hrow
      simp only [State.write] at hrow
      cases hfind : writes.find? (·.key = k) with
      | none =>
          rw [hfind] at hrow
          exact h.rows k row hrow
      | some w =>
          rw [hfind] at hrow
          cases hrow
          obtain ⟨row, hrow, hw⟩ := hwrites w (List.mem_of_find?_eq_some hfind)
          unfold replay at hw
          split at hw
          · exact hlawful.keeps (h.rows _ _ hrow) hw
          · cases hw
    have hdone : ∀ j, (((s.record i writes).setPhase i
        (.committed (writes.map fun w => (w.key, w.entry)))).phase j).done =
          ((s.record i writes).history.filter (·.1 = j)).map Prod.snd := by
      intro j
      rw [State.setPhase_phase]
      have hold := h.done j
      simp only [State.record, List.filter_append, List.map_append, List.filter_map, Function.comp_def]
      split
      · rename_i hj
        subst hj
        rw [hphase] at hold
        rw [← hold]
        simp [Phase.done, Function.comp_def]
      · rename_i hj
        simp [← hold, Ne.symm hj]
    have hinv : L.Inv change P rows₀ (((s.write writes).record i writes).setPhase i
        (.committed (writes.map fun w => (w.key, w.entry)))) := by
      refine ⟨hrows, hreplays, fun j l hl => ?_, fun j l row hl => ?_, fun j w hw => ?_, fun j => ?_, hdone,
        fun j => ?_, fun j => ?_⟩
      all_goals rw [State.setPhase_phase] at *; split at *
      · exact absurd hl List.not_mem_nil
      · exact h.locked j l hl
      · exact absurd hl List.not_mem_nil
      · rename_i hj
        have hmem : l ∈ (s.phase j).keys := List.mem_append_right _ (List.mem_map_of_mem (f := Prod.fst) hl)
        exact (hothers j l hj (h.locked j l hmem)).symm ▸ h.todo j l row hl
      · exact absurd hw List.not_mem_nil
      · rename_i hj
        have hmem : w.key ∈ (s.phase j).keys := List.mem_append_left _ (List.mem_map_of_mem hw)
        exact (hothers j w.key hj (h.locked j w.key hmem)).symm ▸ h.writes j w hw
      · exact List.nodup_nil
      · exact h.nodup j
      · simp only [Phase.done, List.map_map, Function.comp_def]
        exact hnodup
      · exact h.once j
      · nofun
      · exact h.succeeds j
    exact hinv.release (by rw [State.setPhase_phase, if_pos rfl]; rfl)
  · cases hstep

/-- What a run of the system keeps. -/
theorem Inv.run (hlawful : L.Lawful change P) (h : L.Inv change P rows₀ s) {labels : List (Label κ ι τ)}
    (hrun : run L.step s labels = some s') : L.Inv change P rows₀ s' := by
  refine invariant_of_run (fun s label s' h hstep => ?_) h hrun
  cases label with
  | lock i k => exact h.step_lock hstep
  | fetched i => exact h.step_fetched hstep
  | work i now => exact h.step_work hlawful hstep
  | commit i => exact h.step_commit hlawful hstep
  | rollback i => exact h.step_rollback hstep

end Sessions

end Itou.Lib
