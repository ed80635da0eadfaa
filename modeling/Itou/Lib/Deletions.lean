import Mathlib.Data.List.Nodup

/-!
# Deletions that follow foreign keys

A database of rows that refer to each other by foreign keys. Deleting rows deletes those that refer to them by a cascading
relation, and so on; the other relations forbid the deletion or are set to null. A row is identified by its model and its
primary key, and lists the foreign keys that are not null.
-/

namespace Itou.Lib.Deletions

universe u v w

/-- What becomes of the rows that refer to a deleted row. -/
inductive OnDelete where
  | cascade
  | protect
  | restrict
  | setNull
  deriving DecidableEq

structure Row (M : Type u) (R : Type v) (C : Type w) where
  model : M
  pk : Nat
  links : List (R × Nat)
  columns : C

variable {M : Type u} {R : Type v} {C : Type w} [DecidableEq M]

def Row.key (row : Row M R C) : M × Nat := (row.model, row.pk)

/-- The value of a foreign key. -/
def Row.fk [DecidableEq R] (row : Row M R C) (r : R) : Option Nat := row.links.lookup r

def Row.modify (k : M × Nat) (f : C → C) (row : Row M R C) : Row M R C :=
  if row.key = k then { row with columns := f row.columns } else row

@[simp] theorem Row.modify_key (k : M × Nat) (f : C → C) (row : Row M R C) : (row.modify k f).key = row.key := by
  unfold Row.modify
  split <;> rfl

theorem Row.key_comp_modify (k : M × Nat) (f : C → C) :
    (Row.key ∘ Row.modify k f : Row M R C → M × Nat) = Row.key :=
  funext (Row.modify_key k f)

/-- A foreign key is set. -/
def Row.set [DecidableEq R] (row : Row M R C) (r : R) (pk : Nat) : Row M R C :=
  { row with links := (r, pk) :: row.links.filter fun link => decide (link.1 ≠ r) }

omit [DecidableEq M] in
@[simp] theorem Row.set_key [DecidableEq R] (row : Row M R C) (r : R) (pk : Nat) : (row.set r pk).key = row.key := rfl

omit [DecidableEq M] in
theorem Row.lookup_filter_ne [DecidableEq R] {links : List (R × Nat)} {r r' : R} (h : r' ≠ r) :
    (links.filter fun link => decide (link.1 ≠ r)).lookup r' = links.lookup r' := by
  induction links with
  | nil => rfl
  | cons link rest ih =>
      by_cases hr : link.1 = r
      · have hlookup : (r' == link.1) = false := beq_false_of_ne fun heq => h (heq.trans hr)
        rw [List.filter_cons_of_neg (by simpa using hr), ih]
        rw [show link = (link.1, link.2) from rfl, List.lookup_cons, hlookup]
      · rw [List.filter_cons_of_pos (by simpa using hr), show link = (link.1, link.2) from rfl, List.lookup_cons,
          List.lookup_cons, ih]

omit [DecidableEq M] in
theorem Row.fk_set [DecidableEq R] (row : Row M R C) (r : R) (pk : Nat) (r' : R) :
    (row.set r pk).fk r' = if r' = r then some pk else row.fk r' := by
  rw [Row.fk, Row.set, List.lookup_cons]
  split
  next hr => rw [if_pos (eq_of_beq hr)]
  next hr =>
    have hne : r' ≠ r := ne_of_beq_false hr
    rw [if_neg hne, lookup_filter_ne hne, Row.fk]

/-- The relations between the models, and the constraints on the rows and on the pairs of rows. -/
structure Schema (M : Type u) (R : Type v) (C : Type w) where
  model : R → M
  target : R → M
  onDelete : R → OnDelete
  check : Row M R C → Bool
  conflict : Row M R C → Row M R C → Bool

namespace Schema

variable (S : Schema M R C)

def Accepts (rows : List (Row M R C)) : Prop :=
  (∀ row ∈ rows, S.check row = true) ∧ ∀ a ∈ rows, ∀ b ∈ rows, a.key ≠ b.key → S.conflict a b = false

instance (rows : List (Row M R C)) : Decidable (S.Accepts rows) := inferInstanceAs (Decidable (_ ∧ _))

/-- Each foreign key of the row is one of its model, with one value. -/
def Formed (row : Row M R C) : Prop :=
  (row.links.map Prod.fst).Nodup ∧ ∀ link ∈ row.links, S.model link.1 = row.model

instance [DecidableEq R] (row : Row M R C) : Decidable (S.Formed row) := inferInstanceAs (Decidable (_ ∧ _))

omit [DecidableEq M] in
theorem formed_set [DecidableEq R] {S : Schema M R C} {row : Row M R C} (h : S.Formed row) {r : R}
    (hr : S.model r = row.model) (pk : Nat) : S.Formed (row.set r pk) := by
  refine ⟨?_, ?_⟩
  · rw [Row.set, List.map_cons, List.nodup_cons]
    refine ⟨fun hmem => ?_, h.1.sublist (List.filter_sublist.map Prod.fst)⟩
    obtain ⟨link, hlink, hlinkr⟩ := List.mem_map.mp hmem
    exact of_decide_eq_true (List.mem_filter.mp hlink).2 hlinkr
  · intro link hlink
    rcases List.mem_cons.mp hlink with rfl | hlink
    · exact hr
    · exact h.2 link (List.mem_filter.mp hlink).1

/-- The row that a foreign key refers to. -/
def referred (link : R × Nat) : M × Nat := (S.target link.1, link.2)

/-- The row refers to one of these by a relation that does `action`. -/
def RefersTo (action : OnDelete) (keys : List (M × Nat)) (row : Row M R C) : Prop :=
  ∃ link ∈ row.links, S.onDelete link.1 = action ∧ S.referred link ∈ keys

instance (action : OnDelete) (keys : List (M × Nat)) (row : Row M R C) : Decidable (S.RefersTo action keys row) :=
  inferInstanceAs (Decidable (∃ link ∈ row.links, _))

/-! ## What is collected -/

/-- The rows that the cascade adds. -/
def fresh (rows : List (Row M R C)) (keys : List (M × Nat)) : List (Row M R C) :=
  rows.filter fun row => decide (row.key ∉ keys) && decide (S.RefersTo .cascade keys row)

def collect (rows : List (Row M R C)) : Nat → List (M × Nat) → List (M × Nat)
  | 0, keys => keys
  | n + 1, keys => collect rows n (keys ++ (S.fresh rows keys).map Row.key)

/-- The rows that a deletion reaches. -/
inductive Collected (rows : List (Row M R C)) (roots : List (M × Nat)) : M × Nat → Prop where
  | root {k : M × Nat} : k ∈ roots → Collected rows roots k
  | cascade {row : Row M R C} {link : R × Nat} : row ∈ rows → link ∈ row.links → S.onDelete link.1 = .cascade →
      Collected rows roots (S.referred link) → Collected rows roots row.key

variable {S} {rows : List (Row M R C)} {roots keys : List (M × Nat)} {row : Row M R C} {n : Nat} {k : M × Nat}

theorem collected_of_mem_collect (h : ∀ k ∈ keys, S.Collected rows roots k) :
    ∀ k ∈ S.collect rows n keys, S.Collected rows roots k := by
  induction n generalizing keys with
  | zero => exact h
  | succ n ih =>
      refine ih fun k hk => ?_
      rcases List.mem_append.mp hk with hk | hk
      · exact h k hk
      · obtain ⟨row, hrow, rfl⟩ := List.mem_map.mp hk
        obtain ⟨hrow, hnew⟩ := List.mem_filter.mp hrow
        simp only [Bool.and_eq_true, decide_eq_true_eq] at hnew
        obtain ⟨_, link, hlink, hcascade, hkeys⟩ := hnew
        exact .cascade hrow hlink hcascade (h _ hkeys)

theorem subset_collect (hk : k ∈ keys) : k ∈ S.collect rows n keys := by
  induction n generalizing keys with
  | zero => exact hk
  | succ n ih => exact ih (List.mem_append_left _ hk)

/-- Nothing is left to collect. -/
def Closed (S : Schema M R C) (rows : List (Row M R C)) (keys : List (M × Nat)) : Prop :=
  ∀ row ∈ rows, S.RefersTo .cascade keys row → row.key ∈ keys

theorem closed_of_fresh_eq_nil (h : S.fresh rows keys = []) : S.Closed rows keys := by
  intro row hrow hrefers
  have hnew := List.filter_eq_nil_iff.mp h row hrow
  simpa [hrefers] using hnew

theorem fresh_eq_nil (h : S.Closed rows keys) : S.fresh rows keys = [] := by
  refine List.filter_eq_nil_iff.mpr fun row hrow => ?_
  simpa using fun hkey hrefers => hkey (h row hrow hrefers)

theorem collect_of_closed (h : S.Closed rows keys) : S.collect rows n keys = keys := by
  induction n with
  | zero => rfl
  | succ n ih => rw [collect, fresh_eq_nil h, List.map_nil, List.append_nil, ih]

/-- Each round reaches one more row, or is the last one. -/
theorem closed_collect (h : (rows.filter fun row => decide (row.key ∉ keys)).length ≤ n) :
    S.Closed rows (S.collect rows n keys) := by
  induction n generalizing keys with
  | zero =>
      intro row hrow _
      have hnone := List.filter_eq_nil_iff.mp (List.eq_nil_of_length_eq_zero (Nat.le_zero.mp h)) row hrow
      rw [collect]
      simpa using hnone
  | succ n ih =>
      cases hfresh : S.fresh rows keys with
      | nil =>
          rw [collect_of_closed (closed_of_fresh_eq_nil hfresh)]
          exact closed_of_fresh_eq_nil hfresh
      | cons row rest =>
          refine ih ?_
          have hmem : row ∈ S.fresh rows keys := by simp [hfresh]
          obtain ⟨hrow, hnew⟩ := List.mem_filter.mp hmem
          simp only [Bool.and_eq_true, decide_eq_true_eq] at hnew
          have hsub : (rows.filter fun row => decide (row.key ∉ keys ++ (S.fresh rows keys).map Row.key)) =
              (rows.filter fun row => decide (row.key ∉ keys)).filter
                fun row => decide (row.key ∉ (S.fresh rows keys).map Row.key) := by
            rw [List.filter_filter]
            refine List.filter_congr fun row _ => ?_
            simp [Bool.and_comm]
          have hkey : row.key ∈ (S.fresh rows keys).map Row.key := List.mem_map.mpr ⟨row, hmem, rfl⟩
          have hlt : ((rows.filter fun row => decide (row.key ∉ keys)).filter
              fun row => decide (row.key ∉ (S.fresh rows keys).map Row.key)).length <
              (rows.filter fun row => decide (row.key ∉ keys)).length :=
            List.length_filter_lt_length_iff_exists.mpr
              ⟨row, List.mem_filter.mpr ⟨hrow, decide_eq_true hnew.1⟩, by simp [hkey]⟩
          rw [hsub]
          exact Nat.le_of_lt_succ (Nat.lt_of_lt_of_le hlt h)

theorem mem_collect_iff : k ∈ S.collect rows rows.length roots ↔ S.Collected rows roots k := by
  refine ⟨collected_of_mem_collect (fun k hk => .root hk) k, fun h => ?_⟩
  induction h with
  | root hk => exact subset_collect hk
  | @cascade row link hrow hlink hcascade _ ih =>
      exact closed_collect (List.length_filter_le _ _) row hrow ⟨link, hlink, hcascade, ih⟩

omit [DecidableEq M] in
theorem collected_iff :
    S.Collected rows roots k ↔ k ∈ roots ∨ ∃ row ∈ rows, row.key = k ∧
      ∃ link ∈ row.links, S.onDelete link.1 = .cascade ∧ S.Collected rows roots (S.referred link) := by
  constructor
  · intro h
    cases h with
    | root hk => exact .inl hk
    | @cascade row link hrow hlink honDelete hlinked =>
        exact .inr ⟨row, hrow, rfl, link, hlink, honDelete, hlinked⟩
  · rintro (hk | ⟨row, hrow, rfl, link, hlink, honDelete, hlinked⟩)
    · exact .root hk
    · exact .cascade hrow hlink honDelete hlinked

omit [DecidableEq M] in
/-- The models of the rows that are reached. -/
theorem Collected.model {P : M → Prop} (hroots : ∀ k ∈ roots, P k.1)
    (hrows : ∀ row ∈ rows, S.Formed row)
    (hcascade : ∀ r, S.onDelete r = .cascade → P (S.target r) → P (S.model r)) (h : S.Collected rows roots k) :
    P k.1 := by
  induction h with
  | root hk => exact hroots _ hk
  | @cascade row link hrow hlink honDelete _ ih =>
      have hmodel : S.model link.1 = row.model := (hrows row hrow).2 link hlink
      rw [Row.key, ← hmodel]
      exact hcascade link.1 honDelete ih

/-! ## What is left -/

variable (S)

/-- The foreign keys to deleted rows are set to null. -/
def release (keys : List (M × Nat)) (row : Row M R C) : Row M R C :=
  { row with
    links := row.links.filter fun link => decide ¬(S.onDelete link.1 = .setNull ∧ S.referred link ∈ keys) }

def survivors (rows : List (Row M R C)) (keys : List (M × Nat)) : List (Row M R C) :=
  (rows.filter fun row => decide (row.key ∉ keys)).map (S.release keys)

variable {S}

@[simp] theorem release_key (keys : List (M × Nat)) (row : Row M R C) : (S.release keys row).key = row.key := rfl

theorem release_eq (h : ¬ S.RefersTo .setNull keys row) : S.release keys row = row := by
  have hlinks : (row.links.filter fun link => decide ¬(S.onDelete link.1 = .setNull ∧ S.referred link ∈ keys)) =
      row.links :=
    List.filter_eq_self.mpr fun link hlink => decide_eq_true fun hnull => h ⟨link, hlink, hnull⟩
  rw [release, hlinks]

theorem formed_release (h : S.Formed row) : S.Formed (S.release keys row) :=
  ⟨h.1.sublist (List.filter_sublist.map Prod.fst), fun link hlink => h.2 link (List.mem_filter.mp hlink).1⟩

omit [DecidableEq M] in
theorem lookup_eq_some_iff_mem [DecidableEq R] {links : List (R × Nat)} (h : (links.map Prod.fst).Nodup) {r : R}
    {pk : Nat} : links.lookup r = some pk ↔ (r, pk) ∈ links := by
  induction links with
  | nil => simp
  | cons link rest ih =>
      obtain ⟨r', pk'⟩ := link
      obtain ⟨hnew, hrest⟩ := List.nodup_cons.mp h
      by_cases hr : r = r'
      · subst hr
        have habsent : (r, pk) ∉ rest := fun hmem => hnew (List.mem_map.mpr ⟨_, hmem, rfl⟩)
        simp [habsent, eq_comm]
      · have hlookup : (r == r') = false := beq_false_of_ne hr
        rw [List.lookup_cons, hlookup, List.mem_cons, Prod.mk.injEq]
        simpa [hr] using ih hrest

omit [DecidableEq M] in
theorem fk_eq_some_iff [DecidableEq R] (h : S.Formed row) {r : R} {pk : Nat} :
    row.fk r = some pk ↔ (r, pk) ∈ row.links := lookup_eq_some_iff_mem h.1

/-- A foreign key is kept unless it refers to a deleted row and is set to null. -/
theorem fk_release_eq_some_iff [DecidableEq R] (h : S.Formed row) {r : R} {pk : Nat} :
    (S.release keys row).fk r = some pk ↔
      row.fk r = some pk ∧ ¬(S.onDelete r = .setNull ∧ S.referred (r, pk) ∈ keys) := by
  rw [fk_eq_some_iff (formed_release h), fk_eq_some_iff h, release, List.mem_filter, decide_eq_true_eq]

theorem fk_release [DecidableEq R] (h : S.Formed row) (r : R) :
    (S.release keys row).fk r =
      (row.fk r).filter fun pk => decide ¬(S.onDelete r = .setNull ∧ S.referred (r, pk) ∈ keys) := by
  ext pk
  rw [fk_release_eq_some_iff h, Option.filter_eq_some_iff, decide_eq_true_eq]

theorem fk_release_of_ne [DecidableEq R] (h : S.Formed row) {r : R} (hr : S.onDelete r ≠ .setNull) :
    (S.release keys row).fk r = row.fk r := by
  rw [fk_release h]
  cases row.fk r <;> simp [hr]

omit [DecidableEq M] in
/-- The rows that a row refers to by a kind of relation. -/
theorem refersTo_iff [DecidableEq R] (h : S.Formed row) {action : OnDelete} :
    S.RefersTo action keys row ↔ ∃ r pk, row.fk r = some pk ∧ S.onDelete r = action ∧ S.referred (r, pk) ∈ keys := by
  constructor
  · rintro ⟨⟨r, pk⟩, hlink, honDelete, hkeys⟩
    exact ⟨r, pk, (fk_eq_some_iff h).mpr hlink, honDelete, hkeys⟩
  · rintro ⟨r, pk, hfk, honDelete, hkeys⟩
    exact ⟨(r, pk), (fk_eq_some_iff h).mp hfk, honDelete, hkeys⟩

theorem mem_survivors {row' : Row M R C} :
    row' ∈ S.survivors rows keys ↔ ∃ row ∈ rows, row.key ∉ keys ∧ S.release keys row = row' := by
  simp [survivors, and_assoc]

theorem keys_survivors : (S.survivors rows keys).map Row.key =
    (rows.filter fun row => decide (row.key ∉ keys)).map Row.key := by
  simp [survivors, List.map_map, Function.comp_def]

/-- When no foreign key is set to null, no constraint is violated. -/
theorem accepts_survivors (h : S.Accepts rows) (hnull : ∀ row ∈ rows, ¬ S.RefersTo .setNull keys row) :
    S.Accepts (S.survivors rows keys) := by
  have hsub : ∀ row ∈ S.survivors rows keys, row ∈ rows := by
    intro row' hrow'
    obtain ⟨row, hrow, -, rfl⟩ := mem_survivors.mp hrow'
    rwa [release_eq (hnull row hrow)]
  exact ⟨fun row hrow => h.1 row (hsub row hrow), fun a ha b hb => h.2 a (hsub a ha) b (hsub b hb)⟩

/-- Constraints that no foreign key set to null takes part in are not violated. -/
theorem accepts_survivors_of_release (h : S.Accepts rows)
    (hcheck : ∀ row ∈ rows, S.check (S.release keys row) = S.check row)
    (hconflict : ∀ a ∈ rows, ∀ b ∈ rows, S.conflict (S.release keys a) (S.release keys b) = S.conflict a b) :
    S.Accepts (S.survivors rows keys) := by
  constructor
  · intro row' hrow'
    obtain ⟨row, hrow, -, rfl⟩ := mem_survivors.mp hrow'
    exact (hcheck row hrow).trans (h.1 row hrow)
  · intro a' ha' b' hb' hne
    obtain ⟨a, ha, -, rfl⟩ := mem_survivors.mp ha'
    obtain ⟨b, hb, -, rfl⟩ := mem_survivors.mp hb'
    exact (hconflict a ha b hb).trans (h.2 a ha b hb hne)

end Schema

/-! ## Databases -/

/-- The rows of a database, which meets its constraints. -/
structure Database (S : Schema M R C) where
  rows : List (Row M R C)
  nodup : (rows.map Row.key).Nodup
  formed : ∀ row ∈ rows, S.Formed row
  accepted : S.Accepts rows

inductive DatabaseError where
  | protectedError
  | restrictedError
  | integrityError
  deriving DecidableEq

namespace Database

variable {S : Schema M R C} (db : Database S) (roots : List (M × Nat))

def collected : List (M × Nat) := S.collect db.rows db.rows.length roots

/-- A row refers to a deleted one by a relation that protects it. -/
def Protected : Prop := ∃ row ∈ db.rows, S.RefersTo .protect (db.collected roots) row

instance : Decidable (db.Protected roots) := inferInstanceAs (Decidable (∃ row ∈ db.rows, _))

/-- A row that is not deleted refers to a deleted one by a relation that restricts the deletion. -/
def Restricted : Prop :=
  ∃ row ∈ db.rows, row.key ∉ db.collected roots ∧ S.RefersTo .restrict (db.collected roots) row

instance : Decidable (db.Restricted roots) := inferInstanceAs (Decidable (∃ row ∈ db.rows, _))

def delete : Except DatabaseError (Database S) :=
  if db.Protected roots then .error .protectedError
  else if db.Restricted roots then .error .restrictedError
  else if h : S.Accepts (S.survivors db.rows (db.collected roots)) then
    .ok {
      rows := S.survivors db.rows (db.collected roots)
      nodup := by
        rw [Schema.keys_survivors]
        exact db.nodup.sublist (List.filter_sublist.map Row.key)
      formed := by
        intro row' hrow'
        obtain ⟨row, hrow, -, rfl⟩ := Schema.mem_survivors.mp hrow'
        exact Schema.formed_release (db.formed row hrow)
      accepted := h }
  else .error .integrityError

/-- An `UPDATE` of the foreign keys of some rows. -/
def update (f : Row M R C → Row M R C) (hkey : ∀ row, (f row).key = row.key)
    (hformed : ∀ row, S.Formed row → S.Formed (f row)) : Except DatabaseError (Database S) :=
  if h : S.Accepts (db.rows.map f) then
    .ok {
      rows := db.rows.map f
      nodup := by
        rw [List.map_map, show (Row.key ∘ f) = Row.key from funext hkey]
        exact db.nodup
      formed := by
        intro row' hrow'
        obtain ⟨row, hrow, rfl⟩ := List.mem_map.mp hrow'
        exact hformed row (db.formed row hrow)
      accepted := h }
  else .error .integrityError

/-- The columns of a row are saved. -/
def save (k : M × Nat) (f : C → C) : Except DatabaseError (Database S) :=
  if h : S.Accepts (db.rows.map (Row.modify k f)) then
    .ok {
      rows := db.rows.map (Row.modify k f)
      nodup := by
        rw [List.map_map, Row.key_comp_modify]
        exact db.nodup
      formed := by
        intro row' hrow'
        obtain ⟨row, hrow, rfl⟩ := List.mem_map.mp hrow'
        unfold Row.modify
        split
        · exact db.formed row hrow
        · exact db.formed row hrow
      accepted := h }
  else .error .integrityError

variable {db roots} {row : Row M R C} {k : M × Nat} {db' : Database S}

theorem mem_collected : k ∈ db.collected roots ↔ S.Collected db.rows roots k := Schema.mem_collect_iff

theorem delete_succeeds_iff :
    (∃ db', db.delete roots = .ok db') ↔
      ¬ db.Protected roots ∧ ¬ db.Restricted roots ∧ S.Accepts (S.survivors db.rows (db.collected roots)) := by
  unfold delete
  split
  next hprotected => simp [hprotected]
  next hprotected =>
    split
    next hrestricted => simp [hrestricted]
    next hrestricted => split <;> simp [*]

theorem rows_of_delete (h : db.delete roots = .ok db') :
    db'.rows = S.survivors db.rows (db.collected roots) := by
  unfold delete at h
  split at h
  next => cases h
  next =>
    split at h
    next => cases h
    next =>
      split at h
      next =>
        cases h
        rfl
      next => cases h

theorem rows_of_save {f : C → C} (h : db.save k f = .ok db') : db'.rows = db.rows.map (Row.modify k f) := by
  unfold save at h
  split at h
  next =>
    cases h
    rfl
  next => cases h

section Update

variable {f : Row M R C → Row M R C} {hkey : ∀ row, (f row).key = row.key}
  {hformed : ∀ row, S.Formed row → S.Formed (f row)}

theorem rows_of_update (h : db.update f hkey hformed = .ok db') : db'.rows = db.rows.map f := by
  unfold update at h
  split at h
  next =>
    cases h
    rfl
  next => cases h

/-- An update that keeps the constraints succeeds. -/
theorem update_succeeds (hcheck : ∀ row ∈ db.rows, S.check (f row) = true)
    (hconflict : ∀ a ∈ db.rows, ∀ b ∈ db.rows, S.conflict (f a) (f b) = S.conflict a b) :
    ∃ db', db.update f hkey hformed = .ok db' := by
  have haccepts : S.Accepts (db.rows.map f) := by
    constructor
    · intro row' hrow'
      obtain ⟨row, hrow, rfl⟩ := List.mem_map.mp hrow'
      exact hcheck row hrow
    · intro a' ha' b' hb' hne
      obtain ⟨a, ha, rfl⟩ := List.mem_map.mp ha'
      obtain ⟨b, hb, rfl⟩ := List.mem_map.mp hb'
      rw [hkey, hkey] at hne
      exact (hconflict a ha b hb).trans (db.accepted.2 a ha b hb hne)
  exact ⟨_, dif_pos haccepts⟩

end Update

omit [DecidableEq M] in
/-- The rows of a database have different keys. -/
theorem eq_of_key_eq {row' : Row M R C} (hrow : row ∈ db.rows) (hrow' : row' ∈ db.rows) (h : row'.key = row.key) :
    row' = row :=
  List.inj_on_of_nodup_map db.nodup hrow' hrow h

/-- A row that is not reached is kept, but for its foreign keys. -/
theorem delete_keeps (h : db.delete roots = .ok db') (hrow : row ∈ db.rows) (hkey : row.key ∉ db.collected roots) :
    ∃ row' ∈ db'.rows, row'.key = row.key := by
  unfold delete at h
  split at h
  next => exact nomatch h
  next =>
    split at h
    next => exact nomatch h
    next =>
      split at h
      next =>
        obtain rfl := Except.ok.inj h
        exact ⟨S.release (db.collected roots) row, Schema.mem_survivors.mpr ⟨row, hrow, hkey, rfl⟩, rfl⟩
      next => exact nomatch h

theorem save_keeps {f : C → C} (h : db.save k f = .ok db') (hrow : row ∈ db.rows) :
    ∃ row' ∈ db'.rows, row'.key = row.key := by
  unfold save at h
  split at h
  next =>
    obtain rfl := Except.ok.inj h
    exact ⟨_, List.mem_map.mpr ⟨row, hrow, rfl⟩, Row.modify_key k f row⟩
  next => exact nomatch h

end Database

end Itou.Lib.Deletions
