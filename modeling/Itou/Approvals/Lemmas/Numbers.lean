import Itou.Approvals.Numbers
import Itou.Lib.Runs

/-!
# The numbers of approvals are fresh

As long as each lock on `Approval` falls on a row, it falls on the first row of the table. So at most one
transaction is between its lock and its commit, and what it reads stays an upper bound of the prefixed numbers.
-/

namespace Itou.Approvals.Numbers

open Itou.Lib

variable {itouPrefix number : List Char}

/-! ## Numbers -/

theorem Prefixed.eq_append (h : Prefixed itouPrefix number) : number = itouPrefix ++ serial itouPrefix number :=
  (List.prefix_iff_eq_append.mp (List.isPrefixOf_iff_prefix.mp h)).symm

theorem serial_format (n : Nat) : serial itouPrefix (format itouPrefix n) = zeroPadded 7 n :=
  List.drop_left

theorem value_format (n : Nat) : value itouPrefix (format itouPrefix n) = n := by
  rw [value, serial_format, valueOf_zeroPadded]

theorem wellNumbered_format {n : Nat} (hn : n ≤ 9999999) : WellNumbered itouPrefix (format itouPrefix n) := by
  refine ⟨List.isPrefixOf_iff_prefix.mpr (List.prefix_append _ _), ?_⟩
  rw [serial_format]
  exact isDecimal_zeroPadded (by decide) (Nat.lt_of_le_of_lt hn (by decide))

/-- On well-formed numbers the text order is the order of the values. -/
theorem value_le_of_le {number' : List Char} (h : WellNumbered itouPrefix number)
    (h' : WellNumbered itouPrefix number') (hle : number ≤ number') :
    value itouPrefix number ≤ value itouPrefix number' := by
  refine h.2.valueOf_le h'.2 (le_of_not_gt fun hlt => not_lt_of_ge hle ?_)
  rw [h.1.eq_append, h'.1.eq_append]
  exact List.Lex.append_left _ hlt itouPrefix

/-- The number that is read is the greatest one. -/
theorem le_lastNumber {rows : List Row} {last : Nat} {row : Row}
    (hrows : ∀ row ∈ rows, Prefixed itouPrefix row.number → WellNumbered itouPrefix row.number)
    (h : lastNumber itouPrefix rows = some last) (hrow : row ∈ rows) (hprefixed : Prefixed itouPrefix row.number) :
    value itouPrefix row.number ≤ last := by
  have hmem : row ∈ rows.filter fun row => Prefixed itouPrefix row.number :=
    List.mem_filter.mpr ⟨hrow, decide_eq_true hprefixed⟩
  simp only [lastNumber] at h
  cases hhead : (orderByDesc Row.number (rows.filter fun row => Prefixed itouPrefix row.number)).head? with
  | none =>
      rw [List.head?_eq_none_iff] at hhead
      exact absurd (hhead ▸ mem_orderByDesc.mpr hmem) List.not_mem_nil
  | some first =>
      simp only [hhead] at h
      have hle := le_of_head?_orderByDesc hhead hmem
      have hfirst := mem_orderByDesc.mp (List.mem_of_mem_head? hhead)
      rw [List.mem_filter, decide_eq_true_eq] at hfirst
      have hwell := hrows first hfirst.1 hfirst.2
      have hne : first.number ≠ [] := by
        intro hnil
        have hlength := hwell.2.1
        rw [serial, hnil, List.drop_nil] at hlength
        exact absurd hlength (by decide)
      rw [if_neg hne, parseInt_of_isDecimal (by decide) hwell.2, Option.some.injEq] at h
      rw [← h]
      exact value_le_of_le (hrows row hrow hprefixed) hwell hle

theorem eq_of_nextNumber {lastApproval lastCancelled n : Nat} (h : nextNumber lastApproval lastCancelled = some n) :
    n ≤ 9999999 ∧ lastApproval < n ∧ lastCancelled < n := by
  simp only [nextNumber, Option.ite_none_left_eq_some, Option.some.injEq] at h
  omega

/-! ## The invariant -/

/-- Between the lock on `Approval` and the `INSERT`. -/
def Phase.Critical : Phase → Prop
  | .idle | .selectApproval _ => False
  | _ => True

section Invariant

variable (itouPrefix) (approvals cancelled : List Row) (nextApproval : Nat)

/-- A row inserted and not committed yet: it comes after all those of the tables. -/
structure NewRow (row : Row) : Prop where
  after : ∀ old ∈ approvals, old.pk < row.pk
  pk : row.pk < nextApproval
  wellNumbered : WellNumbered itouPrefix row.number
  greater : ∀ old ∈ approvals ++ cancelled,
    Prefixed itouPrefix old.number → value itouPrefix old.number < value itouPrefix row.number

/-- What a transaction knows at each point of `get_next_number`. -/
def PhaseInv (rows : List Row) : Phase → Prop
  | .idle | .lockedApproval => True
  | .selectApproval found => found.Pairwise (· ≤ ·) ∧ (∀ pk ∈ found, pk < nextApproval) ∧
      ∀ row ∈ approvals ++ rows, row.pk ∈ found ∨ ∀ pk ∈ found, pk < row.pk
  | .lastApproval last | .selectCancelled last _ | .lockedCancelled last =>
      ∀ row ∈ approvals ++ rows, Prefixed itouPrefix row.number → value itouPrefix row.number ≤ last
  | .number n => n ≤ 9999999 ∧ ∀ row ∈ approvals ++ cancelled ++ rows,
      Prefixed itouPrefix row.number → value itouPrefix row.number < n

structure CreatorInv (c : Creator) : Prop where
  lockFirst : ∀ pk ∈ c.approvalLocks, pk ∈ approvals.map Row.pk ∧ ∀ row ∈ approvals, pk ≤ row.pk
  locked : c.phase.Critical ∨ c.rows ≠ [] → c.approvalLocks ≠ []
  rows : ∀ row ∈ c.rows, NewRow itouPrefix approvals cancelled nextApproval row
  pks : (c.rows.map Row.pk).Nodup
  numbers : (c.rows.map Row.number).Nodup
  phase : PhaseInv itouPrefix approvals cancelled nextApproval c.rows c.phase

def TransactionInv : Transaction → Prop
  | .creator c => CreatorInv itouPrefix approvals cancelled nextApproval c
  | .canceller c => c.approval ∈ approvals ∧ c.cancelled.number = c.approval.number

end Invariant

/-- What the locking `SELECT` of the transaction found. -/
def Transaction.found : Transaction → List Nat
  | .creator c => c.phase.found
  | .canceller _ => []

/-- Two transactions that run at the same time. -/
structure Compatible (t u : Transaction) : Prop where
  locks : t.approvalLocks.Disjoint u.approvalLocks
  cancelled : ∀ row ∈ t.cancelled, ∀ row' ∈ u.cancelled, row.number ≠ row'.number
  found : ∀ row ∈ t.approvals, ∀ pk ∈ u.found, pk < row.pk

structure Inv (itouPrefix : List Char) (s : State) : Prop where
  pks : (s.approvals.map Row.pk).Nodup
  nextApproval : ∀ row ∈ s.approvals, row.pk < s.nextApproval
  wellNumbered : ∀ row ∈ s.approvals ++ s.cancelled,
    Prefixed itouPrefix row.number → WellNumbered itouPrefix row.number
  transactions : ∀ tid, ∀ t ∈ s.transactions.lookup tid,
    TransactionInv itouPrefix s.approvals s.cancelled s.nextApproval t
  compatible : ∀ tid, ∀ t ∈ s.transactions.lookup tid, ∀ u ∈ s.others tid, Compatible t u

variable {approvals cancelled : List Row} {nextApproval tid : Nat} {c c' : Creator} {t u : Transaction}
  {s s' : State}

/-! ## The lock excludes -/

theorem mem_others : u ∈ s.others tid ↔ ∃ tid' ≠ tid, s.transactions.lookup tid' = some u := by
  rw [State.others, Table.mem_rows]
  constructor
  · rintro ⟨tid', h⟩
    by_cases heq : tid' = tid
    · subst heq
      rw [AList.lookup_erase] at h
      exact absurd h nofun
    · rw [AList.lookup_erase_ne heq] at h
      exact ⟨tid', heq, h⟩
  · rintro ⟨tid', heq, h⟩
    exact ⟨tid', (AList.lookup_erase_ne heq).trans h⟩

/-- Two transactions cannot both hold the first row. -/
theorem CreatorInv.no_locks (h : CreatorInv itouPrefix approvals cancelled nextApproval c)
    (h' : CreatorInv itouPrefix approvals cancelled nextApproval c')
    (hlocks : c.approvalLocks.Disjoint c'.approvalLocks) (hc : c.approvalLocks ≠ []) : c'.approvalLocks = [] := by
  obtain ⟨pk, hpk⟩ := List.exists_mem_of_ne_nil _ hc
  refine List.eq_nil_iff_forall_not_mem.mpr fun pk' hpk' => ?_
  obtain ⟨hmem, hle⟩ := h.lockFirst pk hpk
  obtain ⟨hmem', hle'⟩ := h'.lockFirst pk' hpk'
  obtain ⟨row, hrow, rfl⟩ := List.mem_map.mp hmem
  obtain ⟨row', hrow', rfl⟩ := List.mem_map.mp hmem'
  have heq : row.pk = row'.pk := Nat.le_antisymm (hle row' hrow') (hle' row hrow)
  exact hlocks hpk (heq ▸ hpk')

theorem CreatorInv.rows_eq_nil (h : CreatorInv itouPrefix approvals cancelled nextApproval c)
    (hlocks : c.approvalLocks = []) : c.rows = [] :=
  Decidable.byContradiction fun hrows => h.locked (Or.inr hrows) hlocks

theorem CreatorInv.found_lt (h : CreatorInv itouPrefix approvals cancelled nextApproval c) {pk : Nat}
    (hpk : pk ∈ c.phase.found) : pk < nextApproval := by
  have hphase := h.phase
  cases hp : c.phase with
  | selectApproval found =>
      rw [hp] at hphase hpk
      exact hphase.2.1 pk hpk
  | _ => rw [hp] at hpk; exact absurd hpk List.not_mem_nil

/-! ## The statements of `get_next_number` -/

theorem CreatorInv.visible_wellNumbered (h : CreatorInv itouPrefix s.approvals cancelled nextApproval c)
    (hwell : ∀ row ∈ s.approvals, Prefixed itouPrefix row.number → WellNumbered itouPrefix row.number) :
    ∀ row ∈ s.visible c, Prefixed itouPrefix row.number → WellNumbered itouPrefix row.number := by
  intro row hrow hprefixed
  rcases List.mem_append.mp hrow with hrow | hrow
  · exact hwell row hrow hprefixed
  · exact (h.rows row hrow).wellNumbered

/-- The lock falls on the first row of the table. -/
theorem CreatorInv.first_of_found (h : CreatorInv itouPrefix s.approvals cancelled nextApproval c)
    {found : List Nat} {pk : Nat} (hphase : c.phase = .selectApproval found)
    (hpk : found.find? (fun pk => pk ∈ (s.visible c).map Row.pk) = some pk) :
    pk ∈ s.approvals.map Row.pk ∧ ∀ row ∈ s.approvals, pk ≤ row.pk := by
  have hinv := h.phase
  rw [hphase] at hinv
  obtain ⟨hsorted, _, hcover⟩ := hinv
  have hle : ∀ row ∈ s.visible c, pk ≤ row.pk := by
    intro row hrow
    rcases hcover row hrow with hfound | hafter
    · exact le_of_find?_sorted hsorted hpk hfound (decide_eq_true (List.mem_map_of_mem hrow))
    · exact Nat.le_of_lt (hafter pk (List.mem_of_find?_eq_some hpk))
  refine ⟨?_, fun row hrow => hle row (List.mem_append_left _ hrow)⟩
  have hmem : pk ∈ (s.visible c).map Row.pk := by
    simpa only [decide_eq_true_eq] using List.find?_some hpk
  obtain ⟨row, hrow, rfl⟩ := List.mem_map.mp hmem
  rcases List.mem_append.mp hrow with hrow | hrow
  · exact List.mem_map_of_mem hrow
  · -- A row of its own comes after the row that it has locked.
    obtain ⟨lock, hlock⟩ := List.exists_mem_of_ne_nil _ (h.locked (Or.inr (List.ne_nil_of_mem hrow)))
    obtain ⟨old, hold, rfl⟩ := List.mem_map.mp (h.lockFirst lock hlock).1
    exact absurd ((h.rows row hrow).after old hold) (Nat.not_lt.mpr (hle old (List.mem_append_left _ hold)))

/-- What one statement of `get_next_number` does to the invariant of its transaction. -/
theorem CreatorInv.query {others : List Transaction} {q : Query}
    (h : CreatorInv itouPrefix s.approvals s.cancelled s.nextApproval c) (hs : Inv itouPrefix s)
    (hguard : q = .lockApproval → ∃ row ∈ s.visible c, row.pk ∈ c.phase.found)
    (hq : s.query itouPrefix others c q = some c') :
    CreatorInv itouPrefix s.approvals s.cancelled s.nextApproval c' ∧ c'.rows = c.rows ∧
      (∀ pk ∈ c'.approvalLocks, pk ∈ c.approvalLocks ∨ pk ∉ others.flatMap Transaction.approvalLocks) ∧
      ∀ pk ∈ c'.phase.found, pk ∈ (s.visible c).map Row.pk := by
  have hphase := h.phase
  have hvisible := h.visible_wellNumbered fun row hrow => hs.wellNumbered row (List.mem_append_left _ hrow)
  simp only [State.query] at hq
  split at hq
  · -- `selectApproval`
    rename_i hp
    cases hq
    refine ⟨{ h with locked := fun hc => h.locked (hc.imp False.elim id), phase := ⟨sorted_orderBy_id _, ?_, ?_⟩ },
      rfl, fun pk hpk => Or.inl hpk, fun pk hpk => mem_orderBy.mp hpk⟩
    · intro pk hpk
      obtain ⟨row, hrow, rfl⟩ := List.mem_map.mp (mem_orderBy.mp hpk)
      rcases List.mem_append.mp hrow with hrow | hrow
      · exact hs.nextApproval row hrow
      · exact (h.rows row hrow).pk
    · exact fun row hrow => Or.inl (mem_orderBy.mpr (List.mem_map_of_mem hrow))
  · -- `lockApproval`
    rename_i found hp
    obtain ⟨locks, hlocks, rfl⟩ := Option.map_eq_some_iff.mp hq
    obtain ⟨row, hrow, hfound⟩ := hguard rfl
    rw [hp] at hfound
    simp only [Numbers.lockFirst] at hlocks
    cases hfind : found.find? fun pk => pk ∈ (s.visible c).map Row.pk with
    | none =>
        have hnone := List.find?_eq_none.mp hfind row.pk hfound
        exact absurd (decide_eq_true (List.mem_map_of_mem hrow)) hnone
    | some pk =>
        simp only [hfind, Option.ite_none_left_eq_some, Option.some.injEq] at hlocks
        obtain ⟨hheld, rfl⟩ := hlocks
        refine ⟨{ h with lockFirst := ?_, locked := fun _ => List.cons_ne_nil _ _, phase := trivial }, rfl, ?_,
          fun pk hpk => absurd hpk List.not_mem_nil⟩
        · intro pk' hpk'
          rcases List.mem_cons.mp hpk' with rfl | hpk'
          · exact h.first_of_found hp hfind
          · exact h.lockFirst pk' hpk'
        · intro pk' hpk'
          rcases List.mem_cons.mp hpk' with rfl | hpk'
          · exact Or.inr hheld
          · exact Or.inl hpk'
  · -- `readApproval`
    rename_i hp
    obtain ⟨last, hlast, rfl⟩ := Option.map_eq_some_iff.mp hq
    have hlocked := h.locked (Or.inl (hp ▸ trivial))
    exact ⟨{ h with
        locked := fun _ => hlocked
        phase := fun row hrow hprefixed => le_lastNumber hvisible hlast hrow hprefixed },
      rfl, fun pk hpk => Or.inl hpk, fun pk hpk => absurd hpk List.not_mem_nil⟩
  · -- `selectCancelled`
    rename_i last hp
    cases hq
    have hlocked := h.locked (Or.inl (hp ▸ trivial))
    rw [hp] at hphase
    exact ⟨{ h with locked := fun _ => hlocked, phase := hphase }, rfl, fun pk hpk => Or.inl hpk,
      fun pk hpk => absurd hpk List.not_mem_nil⟩
  · -- `lockCancelled`
    rename_i last found hp
    obtain ⟨locks, _, rfl⟩ := Option.map_eq_some_iff.mp hq
    have hlocked := h.locked (Or.inl (hp ▸ trivial))
    rw [hp] at hphase
    exact ⟨{ h with locked := fun _ => hlocked, phase := hphase }, rfl, fun pk hpk => Or.inl hpk,
      fun pk hpk => absurd hpk List.not_mem_nil⟩
  · -- `readCancelled`
    rename_i last hp
    simp only [Option.bind_eq_some_iff, Option.map_eq_some_iff] at hq
    obtain ⟨lastCancelled, hcancelled, n, hn, rfl⟩ := hq
    have hlocked := h.locked (Or.inl (hp ▸ trivial))
    rw [hp] at hphase
    obtain ⟨hmax, happroval, hlt⟩ := eq_of_nextNumber hn
    refine ⟨{ h with locked := fun _ => hlocked, phase := ⟨hmax, ?_⟩ }, rfl, fun pk hpk => Or.inl hpk,
      fun pk hpk => absurd hpk List.not_mem_nil⟩
    intro row hrow hprefixed
    rw [List.append_assoc, List.mem_append, List.mem_append] at hrow
    rcases hrow with hrow | hrow | hrow
    · exact Nat.lt_of_le_of_lt (hphase row (List.mem_append_left _ hrow) hprefixed) happroval
    · have hwell := fun row hrow => hs.wellNumbered row (List.mem_append_right _ hrow)
      exact Nat.lt_of_le_of_lt (le_lastNumber hwell hcancelled hrow hprefixed) hlt
    · exact Nat.lt_of_le_of_lt (hphase row (List.mem_append_right _ hrow) hprefixed) happroval
  · exact absurd hq nofun

/-- The `INSERT` of an approval with the number that was handed out. -/
theorem CreatorInv.insert {others : List Transaction}
    (h : CreatorInv itouPrefix s.approvals s.cancelled s.nextApproval c) (hs : Inv itouPrefix s)
    (hi : s.insert itouPrefix others c = some c') :
    CreatorInv itouPrefix s.approvals s.cancelled (s.nextApproval + 1) c' ∧
      c'.approvalLocks = c.approvalLocks ∧ c'.phase.found = [] ∧
      ∀ row ∈ c'.rows, row.pk = s.nextApproval ∨ row ∈ c.rows := by
  simp only [State.insert] at hi
  split at hi
  · rename_i n hp
    simp only [Option.ite_none_left_eq_some, Option.some.injEq] at hi
    obtain ⟨_, rfl⟩ := hi
    have hphase := h.phase
    rw [hp] at hphase
    obtain ⟨hmax, hgreater⟩ := hphase
    have hnew : NewRow itouPrefix s.approvals s.cancelled (s.nextApproval + 1)
        ⟨s.nextApproval, format itouPrefix n⟩ := by
      refine ⟨hs.nextApproval, Nat.lt_succ_self _, wellNumbered_format hmax, fun old hold hprefixed => ?_⟩
      rw [value_format]
      exact hgreater old (List.mem_append_left _ hold) hprefixed
    refine ⟨⟨h.lockFirst, fun _ => h.locked (Or.inl (hp ▸ trivial)), ?_, ?_, ?_, trivial⟩, rfl, rfl, ?_⟩
    · intro row hrow
      rcases List.mem_cons.mp hrow with rfl | hrow
      · exact hnew
      · exact { h.rows row hrow with pk := Nat.lt_succ_of_lt (h.rows row hrow).pk }
    · refine List.nodup_cons.mpr ⟨fun hmem => ?_, h.pks⟩
      obtain ⟨row, hrow, heq⟩ := List.mem_map.mp hmem
      exact absurd heq (Nat.ne_of_lt (h.rows row hrow).pk)
    · refine List.nodup_cons.mpr ⟨fun hmem => ?_, h.numbers⟩
      obtain ⟨row, hrow, heq⟩ := List.mem_map.mp hmem
      have hlt := hgreater row (List.mem_append_right _ hrow) (h.rows row hrow).wellNumbered.1
      rw [heq, value_format] at hlt
      exact Nat.lt_irrefl n hlt
    · intro row hrow
      rcases List.mem_cons.mp hrow with rfl | hrow
      · exact Or.inl rfl
      · exact Or.inr hrow
  · exact absurd hi nofun

/-! ## One transaction goes on -/

theorem TransactionInv.mono {next : Nat} (hnext : nextApproval ≤ next)
    (h : TransactionInv itouPrefix approvals cancelled nextApproval t) :
    TransactionInv itouPrefix approvals cancelled next t := by
  cases t with
  | canceller c => exact h
  | creator c =>
      obtain ⟨hlock, hlocked, hrows, hpks, hnumbers, hphase⟩ := h
      have hrow : ∀ row ∈ c.rows, NewRow itouPrefix approvals cancelled next row :=
        fun row hrow => { hrows row hrow with pk := Nat.lt_of_lt_of_le (hrows row hrow).pk hnext }
      refine ⟨hlock, hlocked, hrow, hpks, hnumbers, ?_⟩
      cases hp : c.phase with
      | selectApproval found =>
          rw [hp] at hphase
          exact ⟨hphase.1, fun pk hpk => Nat.lt_of_lt_of_le (hphase.2.1 pk hpk) hnext, hphase.2.2⟩
      | _ => rw [hp] at hphase; exact hphase

/-- The rule for a statement of one transaction: the committed rows are the same. -/
theorem Inv.put (h : Inv itouPrefix s) {next nextCancelled : Nat} (hnext : s.nextApproval ≤ next)
    (ht : TransactionInv itouPrefix s.approvals s.cancelled next t)
    (hcompatible : ∀ u ∈ s.others tid, Compatible t u ∧ Compatible u t) :
    Inv itouPrefix { s.put tid t with nextApproval := next, nextCancelled } := by
  refine ⟨h.pks, fun row hrow => Nat.lt_of_lt_of_le (h.nextApproval row hrow) hnext, h.wellNumbered, ?_, ?_⟩
  · intro tid' u hu
    by_cases heq : tid' = tid
    · subst heq
      rw [State.put, AList.lookup_insert, Option.mem_some_iff] at hu
      exact hu ▸ ht
    · rw [State.put, AList.lookup_insert_ne heq] at hu
      exact (h.transactions tid' u hu).mono hnext
  · intro tid' u hu u' hu'
    obtain ⟨tid'', hne, hu''⟩ := mem_others.mp hu'
    by_cases heq : tid' = tid
    · subst heq
      rw [State.put, AList.lookup_insert, Option.mem_some_iff] at hu
      rw [State.put, AList.lookup_insert_ne hne] at hu''
      exact hu ▸ (hcompatible u' (mem_others.mpr ⟨tid'', hne, hu''⟩)).1
    · rw [State.put, AList.lookup_insert_ne heq] at hu
      by_cases heq' : tid'' = tid
      · subst heq'
        rw [State.put, AList.lookup_insert, Option.some.injEq] at hu''
        exact hu'' ▸ (hcompatible u (mem_others.mpr ⟨tid', heq, hu⟩)).2
      · rw [State.put, AList.lookup_insert_ne heq'] at hu''
        exact h.compatible tid' u hu u' (mem_others.mpr ⟨tid'', hne, hu''⟩)

theorem Inv.compatible_others (h : Inv itouPrefix s) (ht : s.transactions.lookup tid = some t)
    (hu : u ∈ s.others tid) : Compatible t u ∧ Compatible u t := by
  obtain ⟨tid', hne, hu'⟩ := mem_others.mp hu
  exact ⟨h.compatible tid t ht u hu, h.compatible tid' u hu' t (mem_others.mpr ⟨tid, hne.symm, ht⟩)⟩

theorem Inv.transaction_others (h : Inv itouPrefix s) (hu : u ∈ s.others tid) :
    TransactionInv itouPrefix s.approvals s.cancelled s.nextApproval u := by
  obtain ⟨tid', _, hu'⟩ := mem_others.mp hu
  exact h.transactions tid' u hu'

theorem Inv.query (h : Inv itouPrefix s) {q : Query} (hc : s.transactions.lookup tid = some (.creator c))
    (hguard : q = .lockApproval → ∃ row ∈ s.visible c, row.pk ∈ c.phase.found)
    (hq : s.query itouPrefix (s.others tid) c q = some c') : Inv itouPrefix (s.put tid (.creator c')) := by
  have hinv : CreatorInv itouPrefix s.approvals s.cancelled s.nextApproval c := h.transactions tid _ hc
  obtain ⟨hinv', hrows, hlocks, hfound⟩ := hinv.query h hguard hq
  refine h.put (Nat.le_refl _) hinv' fun u hu => ?_
  obtain ⟨hcu, huc⟩ := h.compatible_others hc hu
  have hdisjoint : c'.approvalLocks.Disjoint u.approvalLocks := by
    intro pk hpk hpku
    rcases hlocks pk hpk with hpk | hpk
    · exact hcu.locks hpk hpku
    · exact hpk (List.mem_flatMap_of_mem hu hpku)
  refine ⟨⟨hdisjoint, hcu.cancelled, ?_⟩, List.disjoint_symm hdisjoint, huc.cancelled, ?_⟩
  · intro row hrow
    have hrow' : row ∈ c'.rows := hrow
    exact hcu.found row (hrows ▸ hrow' : row ∈ c.rows)
  · -- The rows of the others come after those that the statement has found.
    intro row hrow pk hpk
    obtain ⟨old, hold, rfl⟩ := List.mem_map.mp (hfound pk hpk)
    cases u with
    | canceller d => exact absurd hrow List.not_mem_nil
    | creator d =>
        have hinvd : CreatorInv itouPrefix s.approvals s.cancelled s.nextApproval d := h.transaction_others hu
        have hnone := hinvd.no_locks hinv huc.locks (hinvd.locked (Or.inr (List.ne_nil_of_mem hrow)))
        rw [State.visible, hinv.rows_eq_nil hnone, List.append_nil] at hold
        exact (hinvd.rows row hrow).after old hold

theorem Inv.insert (h : Inv itouPrefix s) (hc : s.transactions.lookup tid = some (.creator c))
    (hi : s.insert itouPrefix (s.others tid) c = some c') :
    Inv itouPrefix { s.put tid (.creator c') with nextApproval := s.nextApproval + 1 } := by
  have hinv : CreatorInv itouPrefix s.approvals s.cancelled s.nextApproval c := h.transactions tid _ hc
  obtain ⟨hinv', hlocks, hfound, hrows⟩ := hinv.insert h hi
  refine h.put (Nat.le_succ _) hinv' fun u hu => ?_
  obtain ⟨hcu, huc⟩ := h.compatible_others hc hu
  have hdisjoint : c'.approvalLocks.Disjoint u.approvalLocks := hlocks ▸ hcu.locks
  refine ⟨⟨hdisjoint, hcu.cancelled, ?_⟩, List.disjoint_symm hdisjoint, huc.cancelled, ?_⟩
  · intro row hrow pk hpk
    rcases hrows row hrow with heq | hrow
    · cases u with
      | canceller d => exact absurd hpk List.not_mem_nil
      | creator d =>
          have hinvd : CreatorInv itouPrefix s.approvals s.cancelled s.nextApproval d := h.transaction_others hu
          exact heq ▸ hinvd.found_lt hpk
    · exact hcu.found row hrow pk hpk
  · intro row _ pk hpk
    exact absurd (hfound ▸ hpk : pk ∈ []) List.not_mem_nil

theorem Inv.cancel (h : Inv itouPrefix s) {approval : Row} {c : Canceller}
    (hc : s.cancel (s.others tid) approval = some c) :
    Inv itouPrefix { s.put tid (.canceller c) with nextCancelled := s.nextCancelled + 1 } := by
  simp only [State.cancel, Option.ite_none_right_eq_some, Option.some.injEq] at hc
  obtain ⟨⟨happroval, hnumber⟩, rfl⟩ := hc
  refine h.put (Nat.le_refl _) ⟨happroval, rfl⟩ fun u hu => ?_
  have hne : ∀ row ∈ u.cancelled, approval.number ≠ row.number := by
    intro row hrow heq
    exact hnumber row (List.mem_append_right _ (List.mem_flatMap_of_mem hu hrow)) heq.symm
  refine ⟨⟨List.disjoint_nil_left _, ?_, fun row hrow => absurd hrow List.not_mem_nil⟩,
    List.disjoint_nil_right _, ?_, fun row _ pk hpk => absurd hpk List.not_mem_nil⟩
  · intro row hrow row' hrow'
    rw [List.mem_singleton.mp hrow]
    exact hne row' hrow'
  · intro row hrow row' hrow'
    rw [List.mem_singleton.mp hrow']
    exact (hne row hrow).symm

theorem Inv.delete (h : Inv itouPrefix s) {c c' : Canceller} (hc : s.transactions.lookup tid = some (.canceller c))
    (hd : c.delete (s.others tid) = some c') : Inv itouPrefix (s.put tid (.canceller c')) := by
  simp only [Canceller.delete, Option.ite_none_left_eq_some, not_or, Option.some.injEq] at hd
  obtain ⟨⟨_, hfree⟩, rfl⟩ := hd
  have hinv : c.approval ∈ s.approvals ∧ c.cancelled.number = c.approval.number := h.transactions tid _ hc
  refine h.put (Nat.le_refl _) hinv fun u hu => ?_
  obtain ⟨hcu, huc⟩ := h.compatible_others hc hu
  have hdisjoint : [c.approval.pk].Disjoint u.approvalLocks := by
    rw [List.singleton_disjoint]
    exact fun hpk => hfree (List.mem_flatMap_of_mem hu hpk)
  exact ⟨⟨hdisjoint, hcu.cancelled, hcu.found⟩, List.disjoint_symm hdisjoint, huc.cancelled, huc.found⟩

/-! ## One transaction ends -/

/-- The rule for the end of a transaction. -/
theorem Inv.erase (h : Inv itouPrefix s) (hpks : (approvals.map Row.pk).Nodup)
    (hnext : ∀ row ∈ approvals, row.pk < s.nextApproval)
    (hwell : ∀ row ∈ approvals ++ cancelled, Prefixed itouPrefix row.number → WellNumbered itouPrefix row.number)
    (hothers : ∀ u ∈ s.others tid, TransactionInv itouPrefix approvals cancelled s.nextApproval u) :
    Inv itouPrefix { s with approvals, cancelled, transactions := s.transactions.erase tid } := by
  refine ⟨hpks, hnext, hwell, ?_, ?_⟩
  · intro tid' u hu
    exact hothers u (Table.mem_rows.mpr ⟨tid', hu⟩)
  · intro tid' u hu u' hu'
    obtain ⟨tid'', hne, hu''⟩ := mem_others.mp hu'
    by_cases heq : tid' = tid
    · subst heq
      rw [AList.lookup_erase] at hu
      exact absurd hu nofun
    · rw [AList.lookup_erase_ne heq] at hu
      by_cases heq' : tid'' = tid
      · subst heq'
        rw [AList.lookup_erase] at hu''
        exact absurd hu'' nofun
      · rw [AList.lookup_erase_ne heq'] at hu''
        exact h.compatible tid' u hu u' (mem_others.mpr ⟨tid'', hne, hu''⟩)

/-- A transaction that holds no lock while another one commits its rows. -/
theorem TransactionInv.of_created (hc : CreatorInv itouPrefix approvals cancelled nextApproval c)
    (h : TransactionInv itouPrefix approvals cancelled nextApproval u) (hcompatible : Compatible (.creator c) u) :
    TransactionInv itouPrefix (approvals ++ c.rows) cancelled nextApproval u := by
  cases u with
  | canceller d => exact ⟨List.mem_append_left _ h.1, h.2⟩
  | creator d =>
      have hd : CreatorInv itouPrefix approvals cancelled nextApproval d := h
      by_cases hrows : c.rows = []
      · rw [hrows, List.append_nil]
        exact h
      · have hlocks := hc.no_locks hd hcompatible.locks (hc.locked (Or.inr hrows))
        have hnil := hd.rows_eq_nil hlocks
        have hphase := hd.phase
        refine ⟨fun pk hpk => absurd (hlocks ▸ hpk) List.not_mem_nil, hd.locked,
          fun row hrow => absurd (hnil ▸ hrow) List.not_mem_nil, hd.pks, hd.numbers, ?_⟩
        cases hp : d.phase with
        | idle => trivial
        | selectApproval found =>
            rw [hp] at hphase
            refine ⟨hphase.1, hphase.2.1, fun row hrow => ?_⟩
            rw [List.append_assoc, List.mem_append, List.mem_append] at hrow
            rcases hrow with hrow | hrow | hrow
            · exact hphase.2.2 row (List.mem_append_left _ hrow)
            · refine Or.inr fun pk hpk => hcompatible.found row hrow pk ?_
              rw [Transaction.found, hp]
              exact hpk
            · exact hphase.2.2 row (List.mem_append_right _ hrow)
        | _ => exact absurd hlocks (hd.locked (Or.inl (hp ▸ trivial)))

/-- A transaction goes on while another one moves an approval that it has not locked. -/
theorem TransactionInv.of_cancelled {d : Canceller}
    (hpks : (approvals.map Row.pk).Nodup) (hd : d.approval ∈ approvals ∧ d.cancelled.number = d.approval.number)
    (hdeleted : d.deleted = true) (h : TransactionInv itouPrefix approvals cancelled nextApproval u)
    (hcompatible : Compatible (.canceller d) u) :
    TransactionInv itouPrefix (approvals.filter fun row => row.pk ≠ d.approval.pk) (cancelled ++ [d.cancelled])
      nextApproval u := by
  have hsub : ∀ row ∈ approvals.filter fun row => row.pk ≠ d.approval.pk, row ∈ approvals :=
    fun row hrow => (List.mem_filter.mp hrow).1
  -- The numbers of the two tables are the same ones.
  have hbelow : ∀ {bound : Nat}, (∀ old ∈ approvals ++ cancelled,
      Prefixed itouPrefix old.number → value itouPrefix old.number < bound) →
      ∀ old ∈ approvals.filter (fun row => row.pk ≠ d.approval.pk) ++ (cancelled ++ [d.cancelled]),
        Prefixed itouPrefix old.number → value itouPrefix old.number < bound := by
    intro bound hbound old hold hprefixed
    rw [List.mem_append, List.mem_append, List.mem_singleton] at hold
    rcases hold with hold | hold | rfl
    · exact hbound old (List.mem_append_left _ (hsub old hold)) hprefixed
    · exact hbound old (List.mem_append_right _ hold) hprefixed
    · rw [hd.2] at hprefixed ⊢
      exact hbound d.approval (List.mem_append_left _ hd.1) hprefixed
  cases u with
  | canceller e =>
      refine ⟨List.mem_filter.mpr ⟨h.1, decide_eq_true fun heq => ?_⟩, h.2⟩
      have hsame : e.approval = d.approval := List.inj_on_of_nodup_map hpks h.1 hd.1 heq
      refine hcompatible.cancelled d.cancelled (List.mem_singleton.mpr rfl) e.cancelled
        (List.mem_singleton.mpr rfl) ?_
      rw [hd.2, h.2, hsame]
  | creator e =>
      have he : CreatorInv itouPrefix approvals cancelled nextApproval e := h
      have hphase := he.phase
      refine ⟨fun pk hpk => ?_, he.locked, fun row hrow => ?_, he.pks, he.numbers, ?_⟩
      · obtain ⟨hmem, hle⟩ := he.lockFirst pk hpk
        refine ⟨?_, fun row hrow => hle row (hsub row hrow)⟩
        obtain ⟨row, hrow, rfl⟩ := List.mem_map.mp hmem
        refine List.mem_map_of_mem (List.mem_filter.mpr ⟨hrow, decide_eq_true fun heq => ?_⟩)
        refine hcompatible.locks (a := d.approval.pk) ?_ (heq ▸ hpk)
        rw [Transaction.approvalLocks, if_pos hdeleted]
        exact List.mem_singleton.mpr rfl
      · have hnew := he.rows row hrow
        exact ⟨fun old hold => hnew.after old (hsub old hold), hnew.pk, hnew.wellNumbered, hbelow hnew.greater⟩
      · have hvisible : ∀ row ∈ approvals.filter (fun row => row.pk ≠ d.approval.pk) ++ e.rows,
            row ∈ approvals ++ e.rows := by
          intro row hrow
          rw [List.mem_append] at hrow ⊢
          exact hrow.imp_left (hsub row)
        cases hp : e.phase with
        | idle => trivial
        | lockedApproval => trivial
        | selectApproval found =>
            rw [hp] at hphase
            exact ⟨hphase.1, hphase.2.1, fun row hrow => hphase.2.2 row (hvisible row hrow)⟩
        | number n =>
            rw [hp] at hphase
            refine ⟨hphase.1, fun row hrow hprefixed => ?_⟩
            rcases List.mem_append.mp hrow with hrow | hrow
            · exact hbelow (fun old hold => hphase.2 old (List.mem_append_left _ hold)) row hrow hprefixed
            · exact hphase.2 row (List.mem_append_right _ hrow) hprefixed
        | _ =>
            rw [hp] at hphase
            exact fun row hrow => hphase row (hvisible row hrow)

theorem Inv.commit (h : Inv itouPrefix s) (ht : s.transactions.lookup tid = some t) (hdone : t.Done) :
    Inv itouPrefix (s.commit tid t) := by
  cases t with
  | creator c =>
      have hinv : CreatorInv itouPrefix s.approvals s.cancelled s.nextApproval c := h.transactions tid _ ht
      refine h.erase ?_ ?_ ?_ fun u hu => (h.transaction_others hu).of_created hinv (h.compatible_others ht hu).1
      · rw [List.map_append]
        refine List.nodup_append'.mpr ⟨h.pks, hinv.pks, fun pk hpk hpk' => ?_⟩
        obtain ⟨old, hold, rfl⟩ := List.mem_map.mp hpk
        obtain ⟨row, hrow, heq⟩ := List.mem_map.mp hpk'
        exact absurd heq (Nat.ne_of_gt ((hinv.rows row hrow).after old hold))
      · intro row hrow
        rcases List.mem_append.mp hrow with hrow | hrow
        · exact h.nextApproval row hrow
        · exact (hinv.rows row hrow).pk
      · intro row hrow hprefixed
        rw [List.append_assoc, List.mem_append, List.mem_append] at hrow
        rcases hrow with hrow | hrow | hrow
        · exact h.wellNumbered row (List.mem_append_left _ hrow) hprefixed
        · exact (hinv.rows row hrow).wellNumbered
        · exact h.wellNumbered row (List.mem_append_right _ hrow) hprefixed
  | canceller c =>
      have hinv : c.approval ∈ s.approvals ∧ c.cancelled.number = c.approval.number := h.transactions tid _ ht
      refine h.erase (h.pks.sublist (List.filter_sublist.map _))
        (fun row hrow => h.nextApproval row (List.mem_filter.mp hrow).1) ?_
        fun u hu => (h.transaction_others hu).of_cancelled h.pks hinv hdone (h.compatible_others ht hu).1
      intro row hrow hprefixed
      rw [List.mem_append, List.mem_append, List.mem_singleton] at hrow
      rcases hrow with hrow | hrow | rfl
      · exact h.wellNumbered row (List.mem_append_left _ (List.mem_filter.mp hrow).1) hprefixed
      · exact h.wellNumbered row (List.mem_append_right _ hrow) hprefixed
      · rw [hinv.2] at hprefixed ⊢
        exact h.wellNumbered c.approval (List.mem_append_left _ hinv.1) hprefixed

theorem Inv.distinct_commit (h : Inv itouPrefix s) (hdistinct : s.Distinct)
    (ht : s.transactions.lookup tid = some t) : (s.commit tid t).Distinct := by
  cases t with
  | creator c =>
      have hinv : CreatorInv itouPrefix s.approvals s.cancelled s.nextApproval c := h.transactions tid _ ht
      have hperm : (s.approvals ++ c.rows ++ s.cancelled).Perm (c.rows ++ (s.approvals ++ s.cancelled)) := by
        rw [← List.append_assoc]
        exact List.perm_append_comm.append_right s.cancelled
      refine (hperm.map Row.number).nodup_iff.mpr ?_
      rw [List.map_append]
      refine List.nodup_append'.mpr ⟨hinv.numbers, hdistinct, fun number hnew hold => ?_⟩
      obtain ⟨row, hrow, rfl⟩ := List.mem_map.mp hnew
      obtain ⟨old, hold, heq⟩ := List.mem_map.mp hold
      have hwell := (hinv.rows row hrow).wellNumbered
      have hlt := (hinv.rows row hrow).greater old hold (heq ▸ hwell.1)
      rw [heq] at hlt
      exact Nat.lt_irrefl _ hlt
  | canceller c =>
      have hinv : c.approval ∈ s.approvals ∧ c.cancelled.number = c.approval.number := h.transactions tid _ ht
      have hsub : (s.approvals.filter fun row => row.pk ≠ c.approval.pk).Sublist (s.approvals.erase c.approval) := by
        rw [List.Nodup.erase_eq_filter (List.Nodup.of_map _ h.pks)]
        exact List.monotone_filter_right _ fun row hrow => by
          rw [bne_iff_ne]
          exact fun heq => of_decide_eq_true hrow (congrArg Row.pk heq)
      have hnumbers : ((s.approvals.erase c.approval ++ (s.cancelled ++ [c.approval])).map Row.number).Nodup := by
        have hperm : (s.approvals ++ s.cancelled).Perm
            (s.approvals.erase c.approval ++ (s.cancelled ++ [c.approval])) := by
          rw [← List.append_assoc]
          exact ((List.perm_cons_erase hinv.1).append_right s.cancelled).trans
            (List.perm_append_singleton _ _).symm
        exact (hperm.map Row.number).nodup_iff.mp hdistinct
      refine List.Nodup.sublist ?_ hnumbers
      simp only [State.commit, List.map_append, List.map_cons, hinv.2]
      exact (hsub.map Row.number).append_right _

/-! ## Runs -/

/-- The rule for a statement whose lock, if it takes one, falls on a row. -/
theorem Inv.step (h : Inv itouPrefix s ∧ s.Distinct) {label : Nat × Op} (hguard : s.LockFindsRow label)
    (hstep : s.step itouPrefix label = some s') : Inv itouPrefix s' ∧ s'.Distinct := by
  obtain ⟨h, hdistinct⟩ := h
  obtain ⟨tid, op⟩ := label
  simp only [State.step] at hstep
  split at hstep
  · -- `begin`
    cases hstep
    have hinv : CreatorInv itouPrefix s.approvals s.cancelled s.nextApproval ⟨.idle, [], [], []⟩ :=
      ⟨nofun, fun hc => absurd hc (by simp only [Phase.Critical, ne_eq, not_true_eq_false, or_self, not_false_iff]),
        nofun, List.nodup_nil, List.nodup_nil, trivial⟩
    refine ⟨h.put (Nat.le_refl _) hinv fun u _ => ⟨⟨List.disjoint_nil_left _, nofun, nofun⟩,
      List.disjoint_nil_right _, fun _ _ => nofun, fun _ _ => nofun⟩, hdistinct⟩
  · -- `query`
    rename_i q c hc
    obtain ⟨c', hq, rfl⟩ := Option.map_eq_some_iff.mp hstep
    refine ⟨h.query hc (fun hlock => hguard (hlock ▸ rfl) c ?_) hq, hdistinct⟩
    rw [State.creator, hc]
    rfl
  · -- `insert`
    rename_i c hc
    obtain ⟨c', hi, rfl⟩ := Option.map_eq_some_iff.mp hstep
    exact ⟨h.insert hc hi, hdistinct⟩
  · -- `cancel`
    rename_i approval hc
    obtain ⟨c, hcancel, rfl⟩ := Option.map_eq_some_iff.mp hstep
    exact ⟨h.cancel hcancel, hdistinct⟩
  · -- `delete`
    rename_i c hc
    obtain ⟨c', hd, rfl⟩ := Option.map_eq_some_iff.mp hstep
    exact ⟨h.delete hc hd, hdistinct⟩
  · -- `commit`
    rename_i t ht
    simp only [Option.ite_none_right_eq_some, Option.some.injEq] at hstep
    obtain ⟨hdone, rfl⟩ := hstep
    exact ⟨h.commit ht hdone, h.distinct_commit hdistinct ht⟩
  · -- `abort`
    cases hstep
    exact ⟨h.erase h.pks h.nextApproval h.wellNumbered fun u hu => h.transaction_others hu, hdistinct⟩
  · exact absurd hstep nofun

theorem Inv.commitsFresh (h : Inv itouPrefix s) (label : Nat × Op) : s.CommitsFresh itouPrefix label := by
  intro _ c hc row hrow old hold hprefixed
  simp only [State.creator] at hc
  split at hc
  · rename_i d hd
    obtain rfl : d = c := Option.some.inj hc
    have hinv : CreatorInv itouPrefix s.approvals s.cancelled s.nextApproval d := h.transactions label.1 _ hd
    exact (hinv.rows row hrow).greater old hold hprefixed
  · exact absurd hc nofun

theorem State.Start.inv (h : s.Start itouPrefix) : Inv itouPrefix s := by
  have hnone : ∀ tid, s.transactions.lookup tid = none := by
    intro tid
    rw [h.transactions]
    rfl
  refine ⟨h.pks, h.nextApproval, h.wellNumbered, ?_, ?_⟩
  · intro tid t ht
    exact absurd (hnone tid ▸ ht) nofun
  · intro tid t ht
    exact absurd (hnone tid ▸ ht) nofun

end Itou.Approvals.Numbers
