import Itou.Lib.Runs
import Mathlib.Logic.Function.Basic

/-!
# Callers that lock the same rows in the same order

Each caller selects the keys of its rows, locks them one after the other in the order of the query, reads each row once
it is locked, and commits what it computes from the rows that it has read. The locks are released by the commit. When
no commit changes what is selected, the calls take place one after the other.
-/

namespace Itou.Lib

universe u

/-- What the callers `ι` do on a database `σ`: `ids` is what the query selects, and `read` is a row as it is once locked,
when it still matches the query. -/
structure Locking (σ κ ρ ι R : Type u) where
  ids : σ → List κ
  read : σ → κ → Option ρ
  result : ι → List ρ → R
  write : ι → List ρ → σ → σ

namespace Locking

variable {σ κ ρ ι R : Type u} (L : Locking σ κ ρ ι R)

/-! ## One call alone -/

def select (db : σ) : List ρ := (L.ids db).filterMap (L.read db)

/-- The call with no other one. -/
def call (i : ι) (db : σ) : R × σ := (L.result i (L.select db), L.write i (L.select db) db)

/-- Calls one after the other, each with the database before it and after it. -/
inductive History (P : ι → σ → R → σ → Prop) : σ → List (ι × R) → σ → Prop
  | nil (db : σ) : History P db [] db
  | concat {db₀ db db' : σ} {log : List (ι × R)} {i : ι} {r : R} (h : History P db₀ log db) (hcall : P i db r db') :
      History P db₀ (log ++ [(i, r)]) db'

theorem History.mono {P Q : ι → σ → R → σ → Prop} (hPQ : ∀ i db r db', P i db r db' → Q i db r db') {db db' : σ}
    {log : List (ι × R)} (h : History P db log db') : History Q db log db' := by
  induction h with
  | nil => exact History.nil _
  | concat _ hcall ih => exact ih.concat (hPQ _ _ _ _ hcall)

/-! ## Interleaved calls -/

/-- Where a call is: before its query; with the keys it still has to lock, those it holds and the rows it has read; or
committed. -/
inductive Phase (κ ρ R : Type u) where
  | waiting
  | locking (todo held : List κ) (rows : List ρ)
  | returned (r : R)

/-- `log` lists the calls that have committed, in their order. -/
structure State (σ κ ρ ι R : Type u) where
  db : σ
  locks : κ → Option ι
  phase : ι → Phase κ ρ R
  log : List (ι × R)

inductive Label (ι : Type u) where
  | start (i : ι)
  | lock (i : ι)
  | commit (i : ι)

def State.init (db : σ) : State σ κ ρ ι R := ⟨db, fun _ => none, fun _ => .waiting, []⟩

variable [DecidableEq ι] [DecidableEq κ]

/-- A lock that another call holds is waited for: the step cannot be taken. -/
def step (s : State σ κ ρ ι R) : Label ι → Option (State σ κ ρ ι R)
  | .start i =>
      match s.phase i with
      | .waiting => some { s with phase := Function.update s.phase i (.locking (L.ids s.db) [] []) }
      | _ => none
  | .lock i =>
      match s.phase i with
      | .locking (k :: todo) held rows =>
          if (s.locks k).isSome then none
          else some { s with
            locks := Function.update s.locks k (some i)
            phase := Function.update s.phase i (.locking todo (held ++ [k]) (rows ++ (L.read s.db k).toList)) }
      | _ => none
  | .commit i =>
      match s.phase i with
      | .locking [] held rows => some {
          db := L.write i rows s.db
          locks := fun k => if k ∈ held then none else s.locks k
          phase := Function.update s.phase i (.returned (L.result i rows))
          log := s.log ++ [(i, L.result i rows)] }
      | _ => none

/-! ## The invariant -/

/-- A call that is locking has locked the first keys of the query, with the rows as they are now. -/
structure Inv (keys : List κ) (db₀ : σ) (s : State σ κ ρ ι R) : Prop where
  ids : L.ids s.db = keys
  locked : ∀ i todo held rows, s.phase i = .locking todo held rows →
    held ++ todo = keys ∧ rows = held.filterMap (L.read s.db) ∧ ∀ k ∈ held, s.locks k = some i
  holders : ∀ k i, s.locks k = some i → ∃ todo held rows, s.phase i = .locking todo held rows ∧ k ∈ held
  history : History (fun i db r db' => L.call i db = (r, db')) db₀ s.log s.db
  returned : ∀ i r, s.phase i = .returned r ↔ (i, r) ∈ s.log

variable {L} {keys : List κ} {db₀ : σ} {s s' : State σ κ ρ ι R} {i j : ι}

omit [DecidableEq ι] [DecidableEq κ] in
theorem inv_init (db₀ : σ) : L.Inv (L.ids db₀) db₀ (State.init db₀) where
  ids := rfl
  locked := fun _ _ _ _ h => nomatch h
  holders := fun _ _ h => nomatch h
  history := History.nil _
  returned := fun _ _ => ⟨(nomatch ·), (absurd · List.not_mem_nil)⟩

omit [DecidableEq ι] [DecidableEq κ] in
/-- Two calls that both hold locks are the same: the first key of the query is locked once. -/
theorem Inv.eq_of_held (h : L.Inv keys db₀ s) {k k' : κ} {todo todo' held held' : List κ} {rows rows' : List ρ}
    (hi : s.phase i = .locking todo (k :: held) rows) (hj : s.phase j = .locking todo' (k' :: held') rows') :
    i = j := by
  obtain ⟨hkeys, -, hlocks⟩ := h.locked i _ _ _ hi
  obtain ⟨hkeys', -, hlocks'⟩ := h.locked j _ _ _ hj
  rw [← hkeys, List.cons_append, List.cons_append] at hkeys'
  obtain ⟨rfl, -⟩ := List.cons.inj hkeys'
  have hk := hlocks k' List.mem_cons_self
  rw [hlocks' k' List.mem_cons_self, Option.some.injEq] at hk
  exact hk.symm

theorem Inv.start (h : L.Inv keys db₀ s) (hstep : L.step s (.start i) = some s') : L.Inv keys db₀ s' := by
  simp only [step] at hstep
  split at hstep
  · rename_i hi
    obtain rfl := Option.some.inj hstep
    refine ⟨h.ids, ?_, ?_, h.history, ?_⟩
    · intro j todo held rows hj
      by_cases hji : j = i
      · subst hji
        simp only [Function.update_self, Phase.locking.injEq] at hj
        obtain ⟨rfl, rfl, rfl⟩ := hj
        exact ⟨h.ids, rfl, fun k hk => absurd hk List.not_mem_nil⟩
      · simp only [Function.update_of_ne hji] at hj
        exact h.locked j todo held rows hj
    · intro k j hk
      obtain ⟨todo, held, rows, hj, hmem⟩ := h.holders k j hk
      have hji : j ≠ i := by
        rintro rfl
        rw [hi] at hj
        cases hj
      exact ⟨todo, held, rows, by simp only [Function.update_of_ne hji, hj], hmem⟩
    · intro j r
      by_cases hji : j = i
      · subst hji
        simp only [Function.update_self, ← h.returned, hi, reduceCtorEq]
      · simp only [Function.update_of_ne hji]
        exact h.returned j r
  · cases hstep

theorem Inv.lock (h : L.Inv keys db₀ s) (hstep : L.step s (.lock i) = some s') : L.Inv keys db₀ s' := by
  simp only [step] at hstep
  split at hstep
  · rename_i k todo held rows hi
    rw [Option.ite_none_left_eq_some, Option.not_isSome_iff_eq_none] at hstep
    obtain ⟨hfree, hstep⟩ := hstep
    obtain rfl := Option.some.inj hstep
    obtain ⟨hkeys, hrows, hlocks⟩ := h.locked i _ _ _ hi
    have hk : ∀ k' ∈ held, k' ≠ k := by
      rintro k' hk' rfl
      rw [hlocks k' hk'] at hfree
      cases hfree
    refine ⟨h.ids, ?_, ?_, h.history, ?_⟩
    · intro j todo' held' rows' hj
      by_cases hji : j = i
      · subst hji
        simp only [Function.update_self, Phase.locking.injEq] at hj
        obtain ⟨rfl, rfl, rfl⟩ := hj
        refine ⟨by rw [List.append_assoc, List.singleton_append, hkeys], ?_, ?_⟩
        · rw [List.filterMap_append, ← hrows, List.filterMap_cons]
          cases L.read s.db k <;> rfl
        · intro k' hk'
          rcases List.mem_append.mp hk' with hk' | hk'
          · simp only [Function.update_of_ne (hk k' hk'), hlocks k' hk']
          · rw [List.mem_singleton.mp hk']
            simp only [Function.update_self]
      · simp only [Function.update_of_ne hji] at hj
        obtain ⟨hkeys', hrows', hlocks'⟩ := h.locked j _ _ _ hj
        refine ⟨hkeys', hrows', fun k' hk' => ?_⟩
        have hne : k' ≠ k := by
          rintro rfl
          rw [hlocks' k' hk'] at hfree
          cases hfree
        simp only [Function.update_of_ne hne, hlocks' k' hk']
    · intro k' j hk'
      by_cases hkk : k' = k
      · subst hkk
        simp only [Function.update_self, Option.some.injEq] at hk'
        subst hk'
        exact ⟨todo, held ++ [k'], _, by simp only [Function.update_self]; rfl, by simp⟩
      · simp only [Function.update_of_ne hkk] at hk'
        obtain ⟨todo', held', rows', hj, hmem⟩ := h.holders k' j hk'
        by_cases hji : j = i
        · subst hji
          rw [hi, Phase.locking.injEq] at hj
          obtain ⟨-, rfl, -⟩ := hj
          exact ⟨todo, held ++ [k], _, by simp only [Function.update_self]; rfl, List.mem_append_left _ hmem⟩
        · exact ⟨todo', held', rows', by simp only [Function.update_of_ne hji, hj], hmem⟩
    · intro j r
      by_cases hji : j = i
      · subst hji
        simp only [Function.update_self, ← h.returned, hi, reduceCtorEq]
      · simp only [Function.update_of_ne hji]
        exact h.returned j r
  · cases hstep

/-- At a commit, the other calls hold nothing. -/
theorem Inv.commit (hstable : ∀ i db, L.ids (L.call i db).2 = L.ids db) (h : L.Inv keys db₀ s)
    (hstep : L.step s (.commit i) = some s') : L.Inv keys db₀ s' := by
  simp only [step] at hstep
  split at hstep
  · rename_i held rows hi
    obtain rfl := Option.some.inj hstep
    obtain ⟨hkeys, hrows, hlocks⟩ := h.locked i _ _ _ hi
    rw [List.append_nil] at hkeys
    subst hkeys
    have hselect : rows = L.select s.db := by rw [hrows, select, h.ids]
    have hother : ∀ j todo held' rows', j ≠ i → s.phase j = .locking todo held' rows' → held' = [] := by
      intro j todo held' rows' hji hj
      cases held' with
      | nil => rfl
      | cons k' held' =>
          obtain ⟨hkeys', -, -⟩ := h.locked j _ _ _ hj
          cases held with
          | nil => cases hkeys'
          | cons k held => exact absurd (h.eq_of_held hj hi) hji
    refine ⟨?_, ?_, ?_, ?_, ?_⟩
    · rw [hselect]
      exact (hstable i s.db).trans h.ids
    · intro j todo held' rows' hj
      have hji : j ≠ i := by
        rintro rfl
        simp only [Function.update_self, reduceCtorEq] at hj
      simp only [Function.update_of_ne hji] at hj
      obtain ⟨hkeys', hrows', -⟩ := h.locked j _ _ _ hj
      obtain rfl := hother j _ _ _ hji hj
      exact ⟨hkeys', hrows', fun k hk => absurd hk List.not_mem_nil⟩
    · intro k j hk
      rw [Option.ite_none_left_eq_some] at hk
      obtain ⟨todo, held', rows', hj, hmem⟩ := h.holders k j hk.2
      by_cases hji : j = i
      · subst hji
        rw [hi, Phase.locking.injEq] at hj
        obtain ⟨-, rfl, -⟩ := hj
        exact absurd hmem hk.1
      · obtain rfl := hother j _ _ _ hji hj
        exact absurd hmem List.not_mem_nil
    · rw [hselect]
      exact h.history.concat rfl
    · intro j r
      rw [List.mem_append, List.mem_singleton, Prod.mk.injEq]
      by_cases hji : j = i
      · subst hji
        have hnone : (j, r) ∉ s.log := by
          rw [← h.returned, hi]
          exact fun h => nomatch h
        simp only [Function.update_self, Phase.returned.injEq, hnone, true_and, false_or]
        exact eq_comm
      · simp only [Function.update_of_ne hji, hji, false_and, or_false]
        exact h.returned j r
  · cases hstep

theorem Inv.step (hstable : ∀ i db, L.ids (L.call i db).2 = L.ids db) (h : L.Inv keys db₀ s) (label : Label ι)
    (hstep : L.step s label = some s') : L.Inv keys db₀ s' := by
  cases label with
  | start i => exact h.start hstep
  | lock i => exact h.lock hstep
  | commit i => exact h.commit hstable hstep

/-- Whatever the interleaving, the calls that have returned took place one after the other. -/
theorem inv_of_run (hstable : ∀ i db, L.ids (L.call i db).2 = L.ids db) {labels : List (Label ι)}
    (hrun : run L.step (State.init db₀) labels = some s) : L.Inv (L.ids db₀) db₀ s :=
  invariant_of_run (fun _ label _ h hstep => h.step hstable label hstep) (inv_init db₀) hrun

/-- No interleaving blocks: as long as a call has not returned, some call can go on. -/
theorem Inv.exists_step (hnodup : keys.Nodup) (h : L.Inv keys db₀ s) (hphase : ∀ r, s.phase i ≠ .returned r) :
    ∃ label, (L.step s label).isSome := by
  cases hi : s.phase i with
  | waiting => exact ⟨.start i, by simp only [Locking.step, hi, Option.isSome_some]⟩
  | returned r => exact absurd hi (hphase r)
  | locking todo held rows =>
      cases todo with
      | nil => exact ⟨.commit i, by simp only [Locking.step, hi, Option.isSome_some]⟩
      | cons k todo =>
          cases hk : s.locks k with
          | none =>
              exact ⟨.lock i, by
                simp only [Locking.step, hi, hk, Option.isSome_none, Bool.false_eq_true, if_false, Option.isSome_some]⟩
          | some j =>
              -- The holder of the lock goes on: its next key is free, since only it holds the first key.
              obtain ⟨todo', held', rows', hj, hmem⟩ := h.holders k j hk
              cases todo' with
              | nil => exact ⟨.commit j, by simp only [Locking.step, hj, Option.isSome_some]⟩
              | cons k' todo' =>
                  refine ⟨.lock j, ?_⟩
                  cases hk' : s.locks k' with
                  | none =>
                      simp only [Locking.step, hj, hk', Option.isSome_none, Bool.false_eq_true, if_false,
                        Option.isSome_some]
                  | some m =>
                      obtain ⟨todo'', held'', rows'', hm, hmem'⟩ := h.holders k' m hk'
                      obtain ⟨a, l, rfl⟩ := List.exists_cons_of_ne_nil (List.ne_nil_of_mem hmem)
                      obtain ⟨a', l', rfl⟩ := List.exists_cons_of_ne_nil (List.ne_nil_of_mem hmem')
                      obtain rfl := h.eq_of_held hj hm
                      rw [hj, Phase.locking.injEq] at hm
                      rw [← hm.2.1] at hmem'
                      obtain ⟨hkeys, -, -⟩ := h.locked j _ _ _ hj
                      rw [← hkeys] at hnodup
                      exact absurd rfl (List.nodup_append.mp hnodup |>.2.2 k' hmem' k' List.mem_cons_self)

end Locking

end Itou.Lib
