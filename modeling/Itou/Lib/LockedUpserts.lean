import Itou.Lib.Runs
import Mathlib.Data.List.Nodup
import Mathlib.Logic.Function.Basic

/-!
# Transactions of upserts under locks

Transactions run upserts one after the other, each on the rows that are committed by then and on its own writes. Some
statements first wait for a lock, which is held up to the end of the transaction, or until it undoes its statements. When
a transaction holds the lock of each key that it upserts, what it commits is what it would do alone.
-/

namespace Itou.Lib

universe u

/-- The rows, the key that an upsert looks a row up by, and the lock that protects the key. `constraint` is what the
database asks of the rows that are committed. -/
structure LockedUpserts (ρ κ Λ : Type u) where
  key : ρ → κ
  lock : κ → Λ
  constraint : List ρ → Bool

namespace LockedUpserts

variable {ρ κ Λ ι : Type u} (L : LockedUpserts ρ κ Λ)

/-! ## Statements -/

/-- `update_or_create`: what becomes of the row with the key, or of its absence. `none` when it raises. -/
structure Statement where
  key : κ
  /-- The statement waits for the lock of the key. -/
  acquires : Bool
  apply : Option ρ → Option ρ
  key_apply : ∀ row row', (∀ r ∈ row, L.key r = key) → apply row = some row' → L.key row' = key

/-- The write of a statement. -/
inductive Write (ρ : Type u) where
  | insert (row : ρ)
  | update (row : ρ)

variable {L}

def Write.row : Write ρ → ρ
  | insert row | update row => row

variable [DecidableEq κ]

variable (L) in
/-- The rows with a key. -/
def withKey (k : κ) (rows : List ρ) : List ρ := rows.filter fun row => L.key row = k

variable (L) in
def exec (rows : List ρ) : Write ρ → List ρ
  | .insert row => rows ++ [row]
  | .update row => rows.map fun row' => if L.key row' = L.key row then row else row'

variable (L) in
/-- The rows that a transaction sees after its writes. -/
def view (rows : List ρ) (writes : List (Write ρ)) : List ρ := writes.foldl L.exec rows

/-- What the statement writes. `none` when it raises, also on several rows with its key. -/
def Statement.write? (st : L.Statement) (rows : List ρ) : Option (Write ρ) :=
  match L.withKey st.key rows with
  | [] => (st.apply none).map Write.insert
  | [row] => (st.apply (some row)).map Write.update
  | _ :: _ :: _ => none

/-- The writes of the statements alone. A missing statement raises. -/
def writes? : List (Option L.Statement) → List ρ → Option (List (Write ρ))
  | [], _ => some []
  | none :: _, _ => none
  | some st :: rest, rows => do
      let write ← st.write? rows
      let writes ← writes? rest (L.exec rows write)
      return write :: writes

/-- The statements alone. -/
def execAll (program : List (Option L.Statement)) (rows : List ρ) : Option (List ρ) :=
  (writes? program rows).map (L.view rows)

/-! ## Interleaved transactions -/

/-- Where a transaction is: before its first statement; with the statements it still has to run and what it has written;
with its statements undone, or without any; or ended. -/
inductive TransactionPhase (L : LockedUpserts ρ κ Λ) where
  | waiting
  | running (todo : List (Option L.Statement)) (writes : List (Write ρ))
  | undone
  | ended

/-- `commits` lists the transactions that have committed, in their order, each with whether its statements were. -/
structure System (L : LockedUpserts ρ κ Λ) (ι : Type u) where
  rows : List ρ
  locks : Λ → Option ι
  phase : ι → TransactionPhase L
  commits : List (ι × Bool)

/-- A statement may be refused at any time (another constraint, a deadlock), and so may a whole transaction. -/
inductive Move (ι : Type u) where
  | start (i : ι)
  | run (i : ι)
  | refuse (i : ι)
  | commit (i : ι)
  | abort (i : ι)

/-- The transaction that takes the step. -/
def Move.transaction : Move ι → ι
  | start i | run i | refuse i | commit i | abort i => i

def System.init (rows : List ρ) : System L ι := ⟨rows, fun _ => none, fun _ => .waiting, []⟩

variable [DecidableEq ι] [DecidableEq Λ]

/-- The locks of a transaction are released. -/
def release (locks : Λ → Option ι) (i : ι) : Λ → Option ι := fun l => if locks l = some i then none else locks l

/-- The statements of the transaction are undone, up to the savepoint before them. -/
def System.undo (s : System L ι) (i : ι) : System L ι :=
  { s with locks := release s.locks i, phase := Function.update s.phase i .undone }

/-- One step. `none` when it cannot be taken now. -/
def System.step (program : ι → Option (List (Option L.Statement))) (s : System L ι) : Move ι → Option (System L ι)
  | .start i =>
      match s.phase i with
      | .waiting =>
          match program i with
          | none => some { s with phase := Function.update s.phase i .undone }
          | some todo => some { s with phase := Function.update s.phase i (.running todo []) }
      | .running _ _ | .undone | .ended => none
  | .run i =>
      match s.phase i with
      | .running (none :: _) _ => some (s.undo i)
      | .running (some st :: todo) writes =>
          let l := L.lock st.key
          if st.acquires ∧ s.locks l ≠ none ∧ s.locks l ≠ some i then none
          else
            match st.write? (L.view s.rows writes) with
            | none => some (s.undo i)
            | some write => some { s with
                locks := if st.acquires then Function.update s.locks l (some i) else s.locks
                phase := Function.update s.phase i (.running todo (writes ++ [write])) }
      | .running [] _ | .waiting | .undone | .ended => none
  | .refuse i =>
      match s.phase i with
      | .running _ _ => some (s.undo i)
      | .waiting | .undone | .ended => none
  | .commit i =>
      match s.phase i with
      | .running [] writes =>
          if L.constraint (L.view s.rows writes) then
            some ⟨L.view s.rows writes, release s.locks i, Function.update s.phase i .ended, s.commits ++ [(i, true)]⟩
          else none
      | .undone => some { s with phase := Function.update s.phase i .ended, commits := s.commits ++ [(i, false)] }
      | .running (_ :: _) _ | .waiting | .ended => none
  | .abort i =>
      match s.phase i with
      | .running _ _ | .undone =>
          some { s with locks := release s.locks i, phase := Function.update s.phase i .ended }
      | .waiting | .ended => none

/-! ## What is asked of the programs, and what they then do -/

/-- Each statement runs under the lock of its key. -/
def Guarded : List Λ → List (Option L.Statement) → Prop
  | _, [] => True
  | held, none :: rest => Guarded held rest
  | held, some st :: rest =>
      (st.acquires = false → L.lock st.key ∈ held) ∧ Guarded (L.lock st.key :: held) rest

/-- The commits took place one after the other: each with its statements run alone on the rows of the one before, or
without them. -/
inductive Serial (program : ι → Option (List (Option L.Statement))) : List ρ → List (ι × Bool) → List ρ → Prop
  | nil (rows : List ρ) : Serial program rows [] rows
  | applied {rows₀ rows rows' : List ρ} {commits : List (ι × Bool)} {i : ι} {todo : List (Option L.Statement)}
      (h : Serial program rows₀ commits rows) (hprogram : program i = some todo) (hexec : execAll todo rows = some rows')
      (hconstraint : L.constraint rows' = true) :
      Serial program rows₀ (commits ++ [(i, true)]) rows'
  | undone {rows₀ rows : List ρ} {commits : List (ι × Bool)} {i : ι} (h : Serial program rows₀ commits rows) :
      Serial program rows₀ (commits ++ [(i, false)]) rows

/-! ## Statements on some rows -/

section Statements

omit [DecidableEq ι] [DecidableEq Λ]

theorem withKey_exec_ne {k : κ} {write : Write ρ} (hne : L.key write.row ≠ k) (rows : List ρ) :
    L.withKey k (L.exec rows write) = L.withKey k rows := by
  cases write with
  | insert row => simp [withKey, exec, show L.key row ≠ k from hne]
  | update row =>
      have hne : L.key row ≠ k := hne
      induction rows with
      | nil => rfl
      | cons row' rows ih =>
          simp only [withKey, exec, List.map_cons] at ih ⊢
          by_cases heq : L.key row' = L.key row
          · simp [heq, hne, ih]
          · simp [heq, List.filter_cons, ih]

/-- A write does the same to rows that agree on a key. -/
theorem withKey_exec_congr {k : κ} {rows rows' : List ρ} (h : L.withKey k rows = L.withKey k rows')
    (write : Write ρ) : L.withKey k (L.exec rows write) = L.withKey k (L.exec rows' write) := by
  cases write with
  | insert row => simp only [withKey, exec, List.filter_append] at h ⊢; rw [h]
  | update row =>
      have hmap : ∀ rows : List ρ, L.withKey k (L.exec rows (.update row)) =
          (L.withKey k rows).map fun row' => if L.key row' = L.key row then row else row' := fun rows => by
        simp only [withKey, exec, List.filter_map]
        congr 1
        refine List.filter_congr fun row' _ => ?_
        by_cases heq : L.key row' = L.key row <;> simp [heq]
      rw [hmap, hmap, h]

theorem withKey_view_ne {k : κ} {writes : List (Write ρ)} (hne : ∀ write ∈ writes, L.key write.row ≠ k)
    (rows : List ρ) : L.withKey k (L.view rows writes) = L.withKey k rows := by
  induction writes generalizing rows with
  | nil => rfl
  | cons write writes ih =>
      obtain ⟨hwrite, hwrites⟩ := List.forall_mem_cons.1 hne
      exact (ih hwrites (L.exec rows write)).trans (withKey_exec_ne hwrite rows)

theorem Statement.write?_congr {st : L.Statement} {rows rows' : List ρ}
    (h : L.withKey st.key rows = L.withKey st.key rows') : st.write? rows = st.write? rows' := by
  unfold Statement.write?
  rw [h]

/-- A statement inserts a row when there is none with its key, and else updates the only one. -/
theorem Statement.write?_cases {st : L.Statement} {rows : List ρ} {write : Write ρ}
    (h : st.write? rows = some write) :
    (L.withKey st.key rows = [] ∧ ∃ row, st.apply none = some row ∧ write = .insert row) ∨
      ∃ row row', L.withKey st.key rows = [row] ∧ st.apply (some row) = some row' ∧ write = .update row' := by
  unfold Statement.write? at h
  split at h
  · rename_i hnil
    obtain ⟨row, hrow, rfl⟩ := Option.map_eq_some_iff.1 h
    exact .inl ⟨hnil, row, hrow, rfl⟩
  · rename_i row hrow
    obtain ⟨row', hrow', rfl⟩ := Option.map_eq_some_iff.1 h
    exact .inr ⟨row, row', hrow, hrow', rfl⟩
  · exact nomatch h

theorem key_of_withKey {k : κ} {rows : List ρ} {row : ρ} (h : row ∈ L.withKey k rows) : L.key row = k :=
  of_decide_eq_true (List.mem_filter.1 h).2

theorem Statement.key_write {st : L.Statement} {rows : List ρ} {write : Write ρ} (h : st.write? rows = some write) :
    L.key write.row = st.key := by
  rcases Statement.write?_cases h with ⟨-, row, hrow, rfl⟩ | ⟨row, row', hone, hrow, rfl⟩
  · exact st.key_apply _ _ (fun _ hr => absurd hr (Option.not_mem_none _)) hrow
  · refine st.key_apply _ _ (fun r hr => ?_) hrow
    obtain rfl := Option.some.inj hr
    exact key_of_withKey (hone ▸ List.mem_singleton_self row)

theorem keys_exec_update (rows : List ρ) (row : ρ) : (L.exec rows (.update row)).map L.key = rows.map L.key := by
  simp only [exec, List.map_map]
  refine List.map_congr_left fun row' _ => ?_
  by_cases heq : L.key row' = L.key row <;> simp [heq]

theorem withKey_eq_nil {k : κ} {rows : List ρ} : L.withKey k rows = [] ↔ k ∉ rows.map L.key := by
  simp [withKey, List.filter_eq_nil_iff]

theorem Statement.nodup_exec {st : L.Statement} {rows : List ρ} {write : Write ρ} (h : st.write? rows = some write)
    (hnodup : (rows.map L.key).Nodup) : ((L.exec rows write).map L.key).Nodup := by
  have hkey := Statement.key_write h
  rcases Statement.write?_cases h with ⟨hnil, row, hrow, rfl⟩ | ⟨row, row', -, hrow, rfl⟩
  · have hnotMem := withKey_eq_nil.1 hnil
    rw [← hkey] at hnotMem
    simp only [exec, List.map_append, List.map_cons, List.map_nil]
    exact List.nodup_append.2 ⟨hnodup, List.nodup_singleton _, fun a ha b hb hab => by
      obtain rfl := List.mem_singleton.1 hb
      exact hnotMem (hab ▸ ha)⟩
  · rwa [keys_exec_update]

/-! ## Lists of statements -/

theorem writes?_cons {st : L.Statement} {rest : List (Option L.Statement)} {rows : List ρ} {writes : List (Write ρ)} :
    writes? (some st :: rest) rows = some writes ↔
      ∃ write writes', st.write? rows = some write ∧ writes? rest (L.exec rows write) = some writes' ∧
        writes = write :: writes' := by
  simp only [writes?, Option.bind_eq_bind, Option.bind_eq_some_iff, Option.pure_def, Option.some.injEq]
  exact ⟨fun ⟨write, hwrite, writes', hwrites, heq⟩ => ⟨write, writes', hwrite, hwrites, heq.symm⟩,
    fun ⟨write, writes', hwrite, hwrites, heq⟩ => ⟨write, hwrite, writes', hwrites, heq.symm⟩⟩

/-- The writes depend on the rows with the keys of the statements only. -/
theorem writes?_congr {todo : List (Option L.Statement)} {rows rows' : List ρ}
    (h : ∀ st, some st ∈ todo → L.withKey st.key rows = L.withKey st.key rows') :
    writes? todo rows = writes? todo rows' := by
  induction todo generalizing rows rows' with
  | nil => rfl
  | cons st? rest ih =>
      cases st? with
      | none => rfl
      | some st =>
          have hrest : ∀ write, writes? rest (L.exec rows write) = writes? rest (L.exec rows' write) := fun write =>
            ih fun st' hst' => withKey_exec_congr (h st' (List.mem_cons_of_mem _ hst')) write
          simp only [writes?, Statement.write?_congr (h st List.mem_cons_self), hrest]

theorem writes?_concat {done : List (Option L.Statement)} {st : L.Statement} {rows : List ρ} {writes : List (Write ρ)}
    {write : Write ρ} (hdone : writes? done rows = some writes) (hwrite : st.write? (L.view rows writes) = some write) :
    writes? (done ++ [some st]) rows = some (writes ++ [write]) := by
  induction done generalizing rows writes with
  | nil =>
      cases hdone
      exact writes?_cons.2 ⟨write, [], hwrite, rfl, rfl⟩
  | cons st? rest ih =>
      cases st? with
      | none => exact nomatch hdone
      | some st' =>
          obtain ⟨write', writes', hwrite', hwrites', rfl⟩ := writes?_cons.1 hdone
          exact writes?_cons.2 ⟨write', writes' ++ [write], hwrite', ih hwrites' hwrite, rfl⟩

theorem exists_statement {todo : List (Option L.Statement)} {rows : List ρ} {writes : List (Write ρ)}
    (h : writes? todo rows = some writes) : ∀ write ∈ writes, ∃ st, some st ∈ todo ∧ L.key write.row = st.key := by
  induction todo generalizing rows writes with
  | nil =>
      cases h
      exact nofun
  | cons st? rest ih =>
      cases st? with
      | none => exact nomatch h
      | some st =>
          obtain ⟨write, writes', hwrite, hwrites, rfl⟩ := writes?_cons.1 h
          refine List.forall_mem_cons.2 ⟨⟨st, List.mem_cons_self, Statement.key_write hwrite⟩, fun w hw => ?_⟩
          obtain ⟨st', hst', hkey⟩ := ih hwrites w hw
          exact ⟨st', List.mem_cons_of_mem _ hst', hkey⟩

theorem nodup_view {todo : List (Option L.Statement)} {rows : List ρ} {writes : List (Write ρ)}
    (h : writes? todo rows = some writes) (hnodup : (rows.map L.key).Nodup) :
    ((L.view rows writes).map L.key).Nodup := by
  induction todo generalizing rows writes with
  | nil =>
      cases h
      exact hnodup
  | cons st? rest ih =>
      cases st? with
      | none => exact nomatch h
      | some st =>
          obtain ⟨write, writes', hwrite, hwrites, rfl⟩ := writes?_cons.1 h
          have hview := ih hwrites (Statement.nodup_exec hwrite hnodup)
          exact hview

/-! ## The same statements again -/

variable (L) in
/-- The row that an upsert finds. -/
def find (k : κ) (rows : List ρ) : Option ρ := (L.withKey k rows).head?

/-- What becomes of the row with a key. -/
def effectAt (k : κ) : List (Option L.Statement) → Option ρ → Option ρ
  | [], row => row
  | none :: rest, row => effectAt k rest row
  | some st :: rest, row => effectAt k rest (if st.key = k then st.apply row else row)

theorem Statement.withKey_exec {st : L.Statement} {rows : List ρ} {write : Write ρ} (h : st.write? rows = some write) :
    L.withKey st.key (L.exec rows write) = (st.apply (L.find st.key rows)).toList := by
  have hkey := Statement.key_write h
  rcases Statement.write?_cases h with ⟨hnil, row, hrow, rfl⟩ | ⟨row, row', hone, hrow, rfl⟩
  · have happ : L.withKey st.key (L.exec rows (.insert row)) = L.withKey st.key rows ++ [row] := by
      simp [withKey, exec, List.filter_append, show L.key row = st.key from hkey]
    rw [happ, hnil, find, hnil, List.head?_nil, hrow]
    rfl
  · have hkey' : L.key row = st.key := key_of_withKey (hone ▸ List.mem_singleton_self row)
    have hrows : L.withKey st.key rows = L.withKey st.key [row] := by rw [hone]; simp [withKey, hkey']
    rw [withKey_exec_congr hrows, find, hone, List.head?_cons, hrow]
    simp [withKey, exec, hkey', show L.key row' = st.key from hkey]

theorem withKey_view {todo : List (Option L.Statement)} {rows : List ρ} {writes : List (Write ρ)} {k : κ}
    (h : writes? todo rows = some writes) (hone : L.withKey k rows = (L.find k rows).toList) :
    L.withKey k (L.view rows writes) = (effectAt k todo (L.find k rows)).toList := by
  induction todo generalizing rows writes with
  | nil =>
      cases h
      exact hone
  | cons st? rest ih =>
      cases st? with
      | none => exact nomatch h
      | some st =>
          obtain ⟨write, writes', hwrite, hwrites, rfl⟩ := writes?_cons.1 h
          by_cases hk : st.key = k
          · subst hk
            have hexec := Statement.withKey_exec hwrite
            have hfind : L.find st.key (L.exec rows write) = st.apply (L.find st.key rows) := by
              rw [find, hexec]
              cases st.apply (L.find st.key rows) <;> rfl
            have hview := ih hwrites (by rw [hexec, hfind])
            simp only [effectAt, if_true]
            rw [hfind] at hview
            exact hview
          · have hexec := withKey_exec_ne (Statement.key_write hwrite ▸ hk) rows
            have hfind : L.find k (L.exec rows write) = L.find k rows := by rw [find, hexec, find]
            have hview := ih hwrites (by rw [hexec, hfind, hone])
            simp only [effectAt, if_neg hk]
            rw [hfind] at hview
            exact hview

theorem find_view {todo : List (Option L.Statement)} {rows : List ρ} {writes : List (Write ρ)} {k : κ}
    (h : writes? todo rows = some writes) (hone : L.withKey k rows = (L.find k rows).toList) :
    L.find k (L.view rows writes) = effectAt k todo (L.find k rows) := by
  rw [find, withKey_view h hone]
  cases effectAt k todo (L.find k rows) <;> rfl

theorem find_toList {rows : List ρ} (hnodup : (rows.map L.key).Nodup) (k : κ) :
    L.withKey k rows = (L.find k rows).toList := by
  induction rows with
  | nil => rfl
  | cons row rows ih =>
      obtain ⟨hrow, hrows⟩ := List.nodup_cons.1 hnodup
      by_cases hk : L.key row = k
      · have hnil : L.withKey k rows = [] := withKey_eq_nil.2 (hk ▸ hrow)
        simp only [withKey] at hnil
        simp [find, withKey, hk, hnil]
      · simpa [find, withKey, hk] using ih hrows

theorem effectAt_of_notMem {k : κ} {todo : List (Option L.Statement)} (h : ∀ st, some st ∈ todo → st.key ≠ k)
    (row : Option ρ) : effectAt k todo row = row := by
  induction todo generalizing row with
  | nil => rfl
  | cons st? rest ih =>
      have hrest := ih fun st hst => h st (List.mem_cons_of_mem _ hst)
      cases st? with
      | none => exact hrest row
      | some st => rw [effectAt, if_neg (h st List.mem_cons_self), hrest]

/-- The keys are kept, and that of the statement is there. -/
theorem Statement.mem_keys_exec {st : L.Statement} {rows : List ρ} {write : Write ρ}
    (h : st.write? rows = some write) {k : κ} (hk : k ∈ rows.map L.key ∨ k = st.key) :
    k ∈ (L.exec rows write).map L.key := by
  have hkey := Statement.key_write h
  rcases Statement.write?_cases h with ⟨-, row, -, rfl⟩ | ⟨row, row', hone, -, rfl⟩
  · simp only [exec, List.map_append, List.map_cons, List.map_nil, List.mem_append, List.mem_singleton]
    exact hk.imp id fun heq => heq.trans hkey.symm
  · rw [keys_exec_update]
    rcases hk with hk | rfl
    · exact hk
    · by_contra hnotMem
      rw [withKey_eq_nil.2 hnotMem] at hone
      exact nomatch hone

theorem mem_keys_view {todo : List (Option L.Statement)} {rows : List ρ} {writes : List (Write ρ)} {k : κ}
    (h : writes? todo rows = some writes) (hk : k ∈ rows.map L.key ∨ ∃ st, some st ∈ todo ∧ k = st.key) :
    k ∈ (L.view rows writes).map L.key := by
  induction todo generalizing rows writes with
  | nil =>
      cases h
      exact hk.resolve_right fun ⟨_, hst, _⟩ => nomatch hst
  | cons st? rest ih =>
      cases st? with
      | none => exact nomatch h
      | some st =>
          obtain ⟨write, writes', hwrite, hwrites, rfl⟩ := writes?_cons.1 h
          have hview := fun hk => ih hwrites hk
          refine hview ?_
          rcases hk with hk | ⟨st', hst', rfl⟩
          · exact .inl (Statement.mem_keys_exec hwrite (.inl hk))
          · rcases List.mem_cons.1 hst' with heq | hst'
            · obtain rfl := Option.some.inj heq
              exact .inl (Statement.mem_keys_exec hwrite (.inr rfl))
            · exact .inr ⟨st', hst', rfl⟩

/-- Statements on keys that are there insert nothing. -/
theorem keys_view {todo : List (Option L.Statement)} {rows : List ρ} {writes : List (Write ρ)}
    (h : writes? todo rows = some writes) (hkeys : ∀ st, some st ∈ todo → st.key ∈ rows.map L.key) :
    (L.view rows writes).map L.key = rows.map L.key := by
  induction todo generalizing rows writes with
  | nil =>
      cases h
      rfl
  | cons st? rest ih =>
      cases st? with
      | none => exact nomatch h
      | some st =>
          obtain ⟨write, writes', hwrite, hwrites, rfl⟩ := writes?_cons.1 h
          have hexec : (L.exec rows write).map L.key = rows.map L.key := by
            rcases Statement.write?_cases hwrite with ⟨hnil, -⟩ | ⟨_, row', -, -, rfl⟩
            · exact absurd (hkeys st List.mem_cons_self) (withKey_eq_nil.1 hnil)
            · exact keys_exec_update rows row'
          have hview := ih hwrites fun st' hst' => by
            rw [hexec]
            exact hkeys st' (List.mem_cons_of_mem _ hst')
          exact hview.trans hexec

theorem eq_of_withKey {rows rows' : List ρ} (hkeys : rows.map L.key = rows'.map L.key)
    (h : ∀ k, L.withKey k rows = L.withKey k rows') : rows = rows' := by
  induction rows generalizing rows' with
  | nil => exact (List.map_eq_nil_iff.1 hkeys.symm).symm
  | cons row rows ih =>
      cases rows' with
      | nil => exact nomatch hkeys
      | cons row' rows' =>
          obtain ⟨hkey, hrest⟩ := List.cons.inj hkeys
          have hrow : row = row' := by
            have := h (L.key row)
            simp only [withKey, List.filter_cons, hkey, decide_true, if_true] at this
            exact (List.cons.inj this).1
          subst hrow
          rw [ih hrest fun k => ?_]
          have := h k
          by_cases hk : L.key row = k
          · simpa [withKey, hk] using this
          · simpa [withKey, hk] using this

/-- Statements that leave as they are the rows that they have just written do nothing more. -/
theorem execAll_again {todo : List (Option L.Statement)} {rows rows' rows'' : List ρ}
    (hnodup : (rows.map L.key).Nodup)
    (hagain : ∀ k row row', (∀ r ∈ row, L.key r = k) → effectAt k todo row = some row' →
      effectAt k todo (some row') = some row')
    (h : execAll todo rows = some rows') (h' : execAll todo rows' = some rows'') : rows'' = rows' := by
  obtain ⟨writes, hwrites, rfl⟩ := Option.map_eq_some_iff.1 h
  obtain ⟨writes', hwrites', rfl⟩ := Option.map_eq_some_iff.1 h'
  have hkeys : ∀ st, some st ∈ todo → st.key ∈ (L.view rows writes).map L.key := fun st hst =>
    mem_keys_view hwrites (.inr ⟨st, hst, rfl⟩)
  refine eq_of_withKey (keys_view hwrites' hkeys) fun k => ?_
  have hone := find_toList (nodup_view hwrites hnodup) k
  rw [withKey_view hwrites' hone, hone, find_view hwrites (find_toList hnodup k)]
  cases heffect : effectAt k todo (L.find k rows) with
  | some row =>
      rw [hagain k _ row (fun r hr => key_of_withKey (List.mem_of_mem_head? hr)) heffect]
  | none =>
      -- No statement has the key: the row would be there.
      rw [effectAt_of_notMem fun st hst hk => ?_]
      have hnil : L.withKey k (L.view rows writes) = [] := by
        rw [withKey_view hwrites (find_toList hnodup k), heffect]
        rfl
      exact withKey_eq_nil.1 hnil (hk ▸ hkeys st hst)

end Statements

/-! ## What holds of every state of a run -/

/-- The rows are those of the commits one after the other. A running transaction holds the locks of its statements so far,
which would write the same alone. -/
structure Inv (program : ι → Option (List (Option L.Statement))) (rows₀ : List ρ) (s : System L ι) : Prop where
  nodup : (s.rows.map L.key).Nodup
  serial : Serial program rows₀ s.commits s.rows
  running : ∀ i todo writes, s.phase i = .running todo writes → ∃ done held,
    program i = some (done ++ todo) ∧ writes? done s.rows = some writes ∧
      (∀ st, some st ∈ done → s.locks (L.lock st.key) = some i) ∧
      (∀ l ∈ held, s.locks l = some i) ∧ Guarded held todo

variable {program : ι → Option (List (Option L.Statement))} {rows₀ : List ρ} {s s' : System L ι}

omit [DecidableEq ι] [DecidableEq Λ] in
theorem inv_init (hnodup : (rows₀.map L.key).Nodup) : Inv program rows₀ (System.init (L := L) (ι := ι) rows₀) where
  nodup := hnodup
  serial := .nil _
  running := nofun

omit [DecidableEq κ] [DecidableEq Λ] in
theorem release_of_ne {locks : Λ → Option ι} {i j : ι} (hne : j ≠ i) {l : Λ} (h : locks l = some j) :
    release locks i l = some j := by
  simp [release, h, hne]

omit [DecidableEq Λ] in
/-- The rows do not change, and the other transactions keep their locks. -/
theorem Inv.of_rows (h : Inv program rows₀ s) (i : ι) (hrows : s'.rows = s.rows)
    (hserial : Serial program rows₀ s'.commits s'.rows)
    (hothers : ∀ j, j ≠ i → s'.phase j = s.phase j ∧ ∀ l, s.locks l = some j → s'.locks l = some j)
    (hi : ∀ todo writes, s'.phase i = .running todo writes → ∃ done held,
      program i = some (done ++ todo) ∧ writes? done s.rows = some writes ∧
        (∀ st, some st ∈ done → s'.locks (L.lock st.key) = some i) ∧
        (∀ l ∈ held, s'.locks l = some i) ∧ Guarded held todo) : Inv program rows₀ s' where
  nodup := hrows ▸ h.nodup
  serial := hserial
  running := by
    intro j todo writes hphase
    by_cases hji : j = i
    · subst hji
      rw [hrows]
      exact hi todo writes hphase
    · obtain ⟨hsame, hlocks⟩ := hothers j hji
      obtain ⟨done, held, hprogram, hwrites, hdone, hheld, hguarded⟩ := h.running j todo writes (hsame ▸ hphase)
      exact ⟨done, held, hprogram, hrows ▸ hwrites, fun st hst => hlocks _ (hdone st hst),
        fun l hl => hlocks _ (hheld l hl), hguarded⟩

omit [DecidableEq Λ] in
theorem Inv.undo (h : Inv program rows₀ s) (i : ι) : Inv program rows₀ (s.undo i) := by
  refine h.of_rows i rfl h.serial (fun j hne => ⟨Function.update_of_ne hne _ _, fun l => release_of_ne hne⟩) ?_
  intro todo writes hphase
  simp [System.undo] at hphase

theorem Inv.start (hguarded : ∀ i todo, program i = some todo → Guarded [] todo) (h : Inv program rows₀ s) {i : ι}
    (hstep : s.step program (.start i) = some s') : Inv program rows₀ s' := by
  simp only [System.step] at hstep
  split at hstep
  · split at hstep <;> cases hstep
    · refine h.of_rows i rfl h.serial (fun j hne => ⟨Function.update_of_ne hne _ _, fun l => id⟩) ?_
      intro todo writes hphase
      simp at hphase
    · rename_i todo htodo
      refine h.of_rows i rfl h.serial (fun j hne => ⟨Function.update_of_ne hne _ _, fun l => id⟩) ?_
      intro todo' writes hphase
      simp only [Function.update_self, TransactionPhase.running.injEq] at hphase
      obtain ⟨rfl, rfl⟩ := hphase
      exact ⟨[], [], htodo, rfl, nofun, nofun, hguarded i _ htodo⟩
  · exact nomatch hstep
  · exact nomatch hstep
  · exact nomatch hstep

theorem Inv.run (h : Inv program rows₀ s) {i : ι} (hstep : s.step program (.run i) = some s') :
    Inv program rows₀ s' := by
  simp only [System.step] at hstep
  split at hstep
  · cases hstep
    exact h.undo i
  · rename_i st todo writes hphase
    split at hstep
    · exact nomatch hstep
    rename_i hfree
    split at hstep
    · cases hstep
      exact h.undo i
    rename_i write hwrite
    cases hstep
    obtain ⟨done, held, hprogram, hwrites, hdone, hheld, hguarded⟩ := h.running i _ _ hphase
    obtain ⟨hguard, hguarded⟩ := hguarded
    -- The lock was free, or `i` had it.
    have hlocks : ∀ j l, s.locks l = some j →
        (if st.acquires then Function.update s.locks (L.lock st.key) (some i) else s.locks) l = some j := by
      intro j l hl
      split
      · rename_i hacquires
        by_cases heq : l = L.lock st.key
        · subst heq
          by_cases hj : j = i
          · simp [hj]
          · exact absurd ⟨hacquires, by simp [hl], by simp [hl, hj]⟩ hfree
        · rw [Function.update_of_ne heq, hl]
      · exact hl
    have hown : (if st.acquires then Function.update s.locks (L.lock st.key) (some i) else s.locks) (L.lock st.key) =
        some i := by
      split
      · exact Function.update_self _ _ _
      · rename_i hacquires
        exact hheld _ (hguard (by simpa using hacquires))
    refine h.of_rows i rfl h.serial (fun j hne => ⟨Function.update_of_ne hne _ _, fun l => hlocks j l⟩) ?_
    intro todo' writes' hphase'
    simp only [Function.update_self, TransactionPhase.running.injEq] at hphase'
    obtain ⟨rfl, rfl⟩ := hphase'
    refine ⟨done ++ [some st], L.lock st.key :: held, by simpa using hprogram, writes?_concat hwrites hwrite, ?_, ?_,
      hguarded⟩
    · intro st' hst'
      rcases List.mem_append.1 hst' with hst' | hst'
      · exact hlocks i _ (hdone st' hst')
      · obtain rfl := Option.some.inj (List.mem_singleton.1 hst')
        exact hown
    · exact List.forall_mem_cons.2 ⟨hown, fun l hl => hlocks i l (hheld l hl)⟩
  · exact nomatch hstep
  · exact nomatch hstep
  · exact nomatch hstep
  · exact nomatch hstep

/-- A commit does not touch the rows that the others have locked. -/
theorem Inv.commit (h : Inv program rows₀ s) {i : ι} (hstep : s.step program (.commit i) = some s') :
    Inv program rows₀ s' := by
  simp only [System.step] at hstep
  split at hstep
  · rename_i writes hphase
    split at hstep
    · rename_i hconstraint
      cases hstep
      obtain ⟨done, held, hprogram, hwrites, hdone, -, -⟩ := h.running i _ _ hphase
      rw [List.append_nil] at hprogram
      refine ⟨nodup_view hwrites h.nodup, .applied h.serial hprogram (by rw [execAll, hwrites]; rfl) hconstraint, ?_⟩
      intro j todo writes' hphase'
      have hji : j ≠ i := by
        rintro rfl
        simp at hphase'
      simp only [Function.update_of_ne hji] at hphase'
      obtain ⟨done', held', hprogram', hwrites', hdone', hheld', hguarded'⟩ := h.running j _ _ hphase'
      refine ⟨done', held', hprogram', ?_, fun st hst => release_of_ne hji (hdone' st hst),
        fun l hl => release_of_ne hji (hheld' l hl), hguarded'⟩
      rw [← hwrites']
      refine writes?_congr fun st hst => withKey_view_ne (fun write hwrite hkey => ?_) _
      obtain ⟨st', hst', hkey'⟩ := exists_statement hwrites write hwrite
      have hlock := hdone st' hst'
      rw [← hkey', hkey, hdone' st hst] at hlock
      exact hji (Option.some.inj hlock)
    · exact nomatch hstep
  · cases hstep
    refine h.of_rows i rfl (.undone h.serial) (fun j hne => ⟨Function.update_of_ne hne _ _, fun l => id⟩) ?_
    intro todo writes hphase
    simp at hphase
  · exact nomatch hstep
  · exact nomatch hstep
  · exact nomatch hstep

theorem Inv.abort (h : Inv program rows₀ s) {i : ι} (hstep : s.step program (.abort i) = some s') :
    Inv program rows₀ s' := by
  have hended : Inv program rows₀
      { s with locks := release s.locks i, phase := Function.update s.phase i .ended } := by
    refine h.of_rows i rfl h.serial (fun j hne => ⟨Function.update_of_ne hne _ _, fun l => release_of_ne hne⟩) ?_
    intro todo writes hphase
    simp at hphase
  simp only [System.step] at hstep
  split at hstep <;> cases hstep
  · exact hended
  · exact hended

theorem Inv.step (hguarded : ∀ i todo, program i = some todo → Guarded [] todo) (h : Inv program rows₀ s)
    (move : Move ι) (hstep : s.step program move = some s') : Inv program rows₀ s' := by
  cases move with
  | start i => exact h.start hguarded hstep
  | run i => exact h.run hstep
  | refuse i =>
      simp only [System.step] at hstep
      split at hstep <;> cases hstep
      exact h.undo i
  | commit i => exact h.commit hstep
  | abort i => exact h.abort hstep

/-- A transaction without statements to run writes no row. -/
theorem System.rows_of_step {move : Move ι} (hidle : ∀ todo writes, s.phase move.transaction ≠ .running todo writes)
    (hstep : s.step program move = some s') :
    s'.rows = s.rows ∧ (s'.commits = s.commits ∨ s'.commits = s.commits ++ [(move.transaction, false)]) := by
  cases move with
  | start i =>
      simp only [System.step] at hstep
      split at hstep
      · split at hstep <;> cases hstep
        · exact ⟨rfl, .inl rfl⟩
        · exact ⟨rfl, .inl rfl⟩
      · exact nomatch hstep
      · exact nomatch hstep
      · exact nomatch hstep
  | run i =>
      simp only [System.step] at hstep
      split at hstep
      · exact absurd ‹_› (hidle _ _)
      · exact absurd ‹_› (hidle _ _)
      · exact nomatch hstep
      · exact nomatch hstep
      · exact nomatch hstep
      · exact nomatch hstep
  | refuse i =>
      simp only [System.step] at hstep
      split at hstep <;> cases hstep
      exact ⟨rfl, .inl rfl⟩
  | commit i =>
      simp only [System.step] at hstep
      split at hstep
      · exact absurd ‹_› (hidle _ _)
      · cases hstep
        exact ⟨rfl, .inr rfl⟩
      · exact nomatch hstep
      · exact nomatch hstep
      · exact nomatch hstep
  | abort i =>
      simp only [System.step] at hstep
      split at hstep <;> cases hstep
      · exact ⟨rfl, .inl rfl⟩
      · exact ⟨rfl, .inl rfl⟩

/-! ## The last commit -/

omit [DecidableEq ι] [DecidableEq Λ] in
theorem Serial.last {commits : List (ι × Bool)} {i : ι} {applied : Bool} {rows : List ρ}
    (h : Serial program rows₀ (commits ++ [(i, applied)]) rows) :
    ∃ before, Serial program rows₀ commits before ∧
      if applied then ∃ todo, program i = some todo ∧ execAll todo before = some rows ∧ L.constraint rows = true
      else rows = before := by
  generalize hcommits : commits ++ [(i, applied)] = commits' at h
  cases h with
  | nil => simp at hcommits
  | applied h hprogram hexec hconstraint =>
      obtain ⟨rfl, hlast⟩ := List.append_inj' hcommits rfl
      cases hlast
      exact ⟨_, h, _, hprogram, hexec, hconstraint⟩
  | undone h =>
      obtain ⟨rfl, hlast⟩ := List.append_inj' hcommits rfl
      cases hlast
      exact ⟨_, h, rfl⟩

omit [DecidableEq ι] [DecidableEq Λ] in
/-- Some transactions have no statements, and are left out. -/
theorem Serial.filterMap {ε : Type u} {program' : ε → Option (List (Option L.Statement))} {f : ι → Option ε}
    (hf : ∀ i, program i = (f i).bind program') {commits : List (ι × Bool)} {rows : List ρ}
    (h : Serial program rows₀ commits rows) :
    Serial program' rows₀ (commits.filterMap fun c => (f c.1).map (·, c.2)) rows := by
  induction h with
  | nil => exact .nil _
  | applied _ hprogram hexec hconstraint ih =>
      rw [hf] at hprogram
      obtain ⟨e, he, hprogram⟩ := Option.bind_eq_some_iff.1 hprogram
      simpa [he] using ih.applied hprogram hexec hconstraint
  | @undone _ _ i _ ih =>
      cases he : f i with
      | none => simpa [he] using ih
      | some e => simpa [he] using ih.undone

omit [DecidableEq ι] [DecidableEq Λ] in
theorem Serial.nodup {commits : List (ι × Bool)} {rows : List ρ} (h : Serial program rows₀ commits rows)
    (hnodup : (rows₀.map L.key).Nodup) : (rows.map L.key).Nodup := by
  induction h with
  | nil => exact hnodup
  | applied _ _ hexec _ ih =>
      obtain ⟨writes, hwrites, rfl⟩ := Option.map_eq_some_iff.1 hexec
      exact nodup_view hwrites ih
  | undone _ ih => exact ih

omit [DecidableEq ι] [DecidableEq Λ] in
/-- The commits determine the rows. -/
theorem Serial.unique {commits : List (ι × Bool)} {rows rows' : List ρ} (h : Serial program rows₀ commits rows)
    (h' : Serial program rows₀ commits rows') : rows' = rows := by
  induction h generalizing rows' with
  | nil =>
      generalize hcommits : ([] : List (ι × Bool)) = commits at h'
      cases h' with
      | nil => rfl
      | applied | undone => simp at hcommits
  | applied h hprogram hexec _ ih =>
      obtain ⟨before, hbefore, todo, htodo, hexec', -⟩ := h'.last
      rw [ih hbefore, Option.some.inj (htodo.symm.trans hprogram), hexec] at hexec'
      exact (Option.some.inj hexec').symm
  | undone h ih =>
      obtain ⟨before, hbefore, rfl⟩ := h'.last
      exact ih hbefore

omit [DecidableEq ι] [DecidableEq Λ] in
/-- A commit right after another one of the same statements leaves the rows as they are. -/
theorem Serial.again (hnodup : (rows₀.map L.key).Nodup) {commits : List (ι × Bool)} {i j : ι} {applied : Bool}
    {todo : List (Option L.Statement)} (hi : program i = some todo) (hj : program j = some todo)
    (hagain : ∀ k row row', (∀ r ∈ row, L.key r = k) → effectAt k todo row = some row' →
      effectAt k todo (some row') = some row')
    {rows rows' : List ρ} (h : Serial program rows₀ (commits ++ [(i, true)]) rows)
    (h' : Serial program rows₀ (commits ++ [(i, true)] ++ [(j, applied)]) rows') : rows' = rows := by
  obtain ⟨before, hbefore, todo', htodo', hexec, -⟩ := h.last
  obtain ⟨middle, hmiddle, hlast⟩ := h'.last
  obtain rfl := h.unique hmiddle
  obtain rfl := Option.some.inj (htodo'.symm.trans hi)
  cases applied with
  | false => exact hlast
  | true =>
      obtain ⟨todo'', htodo'', hexec', -⟩ := hlast
      rw [Option.some.inj (htodo''.symm.trans hj)] at hexec'
      exact execAll_again (hbefore.nodup hnodup) hagain hexec hexec'

end LockedUpserts

end Itou.Lib
