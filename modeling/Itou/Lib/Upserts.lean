import Mathlib.Data.List.Induction
import Mathlib.Data.List.Nodup

/-!
# Upserts in a table with a unique constraint

`INSERT … ON CONFLICT (pk) DO UPDATE` of several rows in one statement. The rows are written one after another, and the
unique constraint is checked for each of them. The statement is refused, and gives `none`, when a constraint is broken or
when it would write a row twice.
-/

namespace Itou.Lib

universe u v w

/-- The primary key of a row, the columns of the unique constraint (`none` when the row is not concerned), and what
becomes of an old row on which a new one falls. -/
structure Upsert (ρ : Type u) (ι : Type v) (κ : Type w) where
  pk : ρ → ι
  key : ρ → Option κ
  update : ρ → ρ → ρ

namespace Upsert

variable {ρ : Type u} {ι : Type v} {κ : Type w} (c : Upsert ρ ι κ)

/-- Two rows under different primary keys have the same key. -/
def Clash (s r : ρ) : Prop := c.pk s ≠ c.pk r ∧ (c.key r).isSome ∧ c.key s = c.key r

/-- The order in which the rows are written suits the table: a row that has the key of another one comes after that other
one has been given a new key. -/
def Orderly (rows page : List ρ) : Prop :=
  (page.map c.pk).Nodup ∧ ∀ before r after, page = before ++ r :: after →
    (∀ t ∈ before, ¬ c.Clash t r) ∧ ∀ s ∈ rows, c.Clash s r → ∃ t ∈ before, c.pk t = c.pk s

theorem orderly_concat {c : Upsert ρ ι κ} {rows page : List ρ} {r : ρ} (hnodup : ((page ++ [r]).map c.pk).Nodup) :
    c.Orderly rows (page ++ [r]) ↔ c.Orderly rows page ∧ (∀ t ∈ page, ¬ c.Clash t r) ∧ ∀ s ∈ rows, c.Clash s r → ∃ t ∈ page, c.pk t = c.pk s := by
  have hpage : (page.map c.pk).Nodup := by
    rw [List.map_append, List.nodup_append] at hnodup
    exact hnodup.1
  constructor
  · rintro ⟨-, h⟩
    refine ⟨⟨hpage, fun before t after heq => ?_⟩, h page r [] rfl⟩
    exact h before t (after ++ [r]) (by rw [heq, List.append_assoc, List.cons_append])
  · rintro ⟨⟨-, h⟩, hr⟩
    refine ⟨hnodup, fun before t after heq => ?_⟩
    -- The last row is `r`, the others are those of `page`.
    rcases List.eq_nil_or_concat after with rfl | ⟨after, last, rfl⟩
    · obtain ⟨rfl, hlast⟩ := List.append_inj' heq rfl
      obtain rfl : r = t := List.singleton_inj.mp hlast
      exact hr
    · rw [List.concat_eq_append, ← List.cons_append, ← List.append_assoc] at heq
      exact h before t after (List.append_inj' heq rfl).1

section Statement

variable [DecidableEq ι] [DecidableEq κ]

instance (s r : ρ) : Decidable (c.Clash s r) :=
  inferInstanceAs (Decidable (c.pk s ≠ c.pk r ∧ (c.key r).isSome ∧ c.key s = c.key r))

/-- One row of the statement. -/
def upsertRow (rows : List ρ) (r : ρ) : Option (List ρ) :=
  if ∃ s ∈ rows, c.Clash s r then none
  else if ∃ s ∈ rows, c.pk s = c.pk r then some (rows.map fun s => if c.pk s = c.pk r then c.update s r else s)
  else some (rows ++ [r])

/-- The statement. -/
def upsert (rows page : List ρ) : Option (List ρ) :=
  if (page.map c.pk).Nodup then page.foldlM c.upsertRow rows else none

variable {c} {rows rows' page : List ρ} {r x : ρ}

/-! ## What is stored -/

theorem mem_upsertRow (h : c.upsertRow rows r = some rows') (hupdate : ∀ s ∈ rows, c.pk s = c.pk r → c.update s r = r) :
    x ∈ rows' ↔ x = r ∨ x ∈ rows ∧ c.pk x ≠ c.pk r := by
  unfold upsertRow at h
  split at h
  · cases h
  · split at h
    · rename_i hmem
      obtain ⟨s, hs, hpk⟩ := hmem
      cases h
      rw [List.mem_map]
      constructor
      · rintro ⟨t, ht, rfl⟩
        split
        · rename_i htr
          exact Or.inl (hupdate t ht htr)
        · rename_i htr
          exact Or.inr ⟨ht, htr⟩
      · rintro (rfl | ⟨hx, hne⟩)
        · exact ⟨s, hs, by rw [if_pos hpk, hupdate s hs hpk]⟩
        · exact ⟨x, hx, if_neg hne⟩
    · rename_i hnone
      cases h
      rw [List.mem_append, List.mem_singleton]
      constructor
      · rintro (hx | rfl)
        · exact Or.inr ⟨hx, fun hpk => hnone ⟨x, hx, hpk⟩⟩
        · exact Or.inl rfl
      · rintro (rfl | ⟨hx, -⟩)
        · exact Or.inr rfl
        · exact Or.inl hx

/-- The table holds the rows of the statement, and those that have other primary keys. -/
theorem mem_upsert (h : c.upsert rows page = some rows')
    (hupdate : ∀ s ∈ rows, ∀ r ∈ page, c.pk s = c.pk r → c.update s r = r) :
    x ∈ rows' ↔ x ∈ page ∨ x ∈ rows ∧ ∀ r ∈ page, c.pk x ≠ c.pk r := by
  rw [upsert, Option.ite_none_right_eq_some] at h
  obtain ⟨hnodup, h⟩ := h
  induction page using List.reverseRecOn generalizing rows' x with
  | nil =>
      cases h
      simp
  | append_singleton page r ih =>
      rw [List.foldlM_append, Option.bind_eq_bind, Option.bind_eq_some_iff] at h
      obtain ⟨rows₁, hpage, hrow⟩ := h
      replace hrow : c.upsertRow rows₁ r = some rows' := by simpa using hrow
      rw [List.map_append, List.nodup_append] at hnodup
      have hmem {y : ρ} : y ∈ rows₁ ↔ y ∈ page ∨ y ∈ rows ∧ ∀ r ∈ page, c.pk y ≠ c.pk r :=
        ih (fun s hs r hr => hupdate s hs r (List.mem_append_left _ hr)) hnodup.1 hpage
      have hnew : ∀ t ∈ page, c.pk t ≠ c.pk r := fun t ht =>
        hnodup.2.2 _ (List.mem_map_of_mem ht) _ (List.mem_singleton.mpr rfl)
      rw [mem_upsertRow hrow, hmem]
      · constructor
        · rintro (rfl | ⟨hx | ⟨hx, hpks⟩, hne⟩)
          · exact Or.inl (List.mem_append_right _ (List.mem_singleton.mpr rfl))
          · exact Or.inl (List.mem_append_left _ hx)
          · refine Or.inr ⟨hx, fun t ht => ?_⟩
            rcases List.mem_append.mp ht with ht | ht
            · exact hpks t ht
            · exact List.mem_singleton.mp ht ▸ hne
        · rintro (hx | ⟨hx, hpks⟩)
          · rcases List.mem_append.mp hx with hx | hx
            · exact Or.inr ⟨Or.inl hx, hnew x hx⟩
            · exact Or.inl (List.mem_singleton.mp hx)
          · exact Or.inr ⟨Or.inr ⟨hx, fun t ht => hpks t (List.mem_append_left _ ht)⟩,
              hpks r (List.mem_append_right _ (List.mem_singleton.mpr rfl))⟩
      · intro s hs hpk
        rcases hmem.mp hs with hs | ⟨hs, -⟩
        · exact absurd hpk (hnew s hs)
        · exact hupdate s hs r (List.mem_append_right _ (List.mem_singleton.mpr rfl)) hpk

/-! ## When the statement is accepted -/

theorem upsertRow_isSome_iff : (c.upsertRow rows r).isSome ↔ ∀ s ∈ rows, ¬ c.Clash s r := by
  unfold upsertRow
  split
  · rename_i h
    obtain ⟨s, hs, hclash⟩ := h
    exact iff_of_false Bool.false_ne_true fun h => h s hs hclash
  · rename_i h
    refine iff_of_true ?_ fun s hs hclash => h ⟨s, hs, hclash⟩
    split <;> rfl

/-- The statement is accepted exactly when its order suits the table. -/
theorem upsert_isSome_iff (hupdate : ∀ s ∈ rows, ∀ r ∈ page, c.pk s = c.pk r → c.update s r = r) :
    (c.upsert rows page).isSome ↔ c.Orderly rows page := by
  by_cases hnodup : (page.map c.pk).Nodup
  · induction page using List.reverseRecOn with
    | nil =>
        refine iff_of_true (by simp [upsert]) ⟨hnodup, fun before r after heq => ?_⟩
        exact absurd heq (by simp)
    | append_singleton page r ih =>
        have hpage : (page.map c.pk).Nodup := by
          rw [List.map_append, List.nodup_append] at hnodup
          exact hnodup.1
        have hnew : ∀ t ∈ page, c.pk t ≠ c.pk r := fun t ht => by
          rw [List.map_append, List.nodup_append] at hnodup
          exact hnodup.2.2 _ (List.mem_map_of_mem ht) _ (List.mem_singleton.mpr rfl)
        have hupdate' : ∀ s ∈ rows, ∀ t ∈ page, c.pk s = c.pk t → c.update s t = t := fun s hs t ht =>
          hupdate s hs t (List.mem_append_left _ ht)
        have hconcat : c.upsert rows (page ++ [r]) = (c.upsert rows page).bind (c.upsertRow · r) := by
          rw [upsert, upsert, if_pos hnodup, if_pos hpage, List.foldlM_append]
          simp
        rw [orderly_concat hnodup, ← ih hupdate' hpage, hconcat]
        cases hrows : c.upsert rows page with
        | none => exact iff_of_false Bool.false_ne_true fun h => Bool.false_ne_true h.1
        | some rows₁ =>
            rw [Option.bind_some, upsertRow_isSome_iff]
            simp only [Option.isSome_some, true_and, mem_upsert hrows hupdate']
            constructor
            · intro h
              refine ⟨fun t ht => h t (Or.inl ht), fun s hs hclash => ?_⟩
              by_contra hnone
              exact h s (Or.inr ⟨hs, fun t ht heq => hnone ⟨t, ht, heq.symm⟩⟩) hclash
            · rintro ⟨hpages, hrows⟩ s (hs | ⟨hs, hpks⟩) hclash
              · exact hpages s hs hclash
              · obtain ⟨t, ht, heq⟩ := hrows s hs hclash
                exact hpks t ht heq.symm
  · rw [upsert, if_neg hnodup]
    exact iff_of_false Bool.false_ne_true fun h => hnodup h.1

end Statement

end Upsert

/-! ## What a list of statements has sent -/

section LastSent

variable {ρ : Type u} {ι : Type v} (pk : ρ → ι)

/-- The row was sent, and no later statement sends a row under its primary key. -/
def LastSent (pages : List (List ρ)) (x : ρ) : Prop :=
  ∃ before page after, pages = before ++ page :: after ∧ x ∈ page ∧ ∀ later ∈ after, ∀ r ∈ later, pk x ≠ pk r

variable {pk} {pages : List (List ρ)} {page : List ρ} {x : ρ}

theorem not_lastSent_nil : ¬ LastSent pk [] x := by
  rintro ⟨before, page, after, heq, -⟩
  cases before <;> cases heq

theorem lastSent_concat :
    LastSent pk (pages ++ [page]) x ↔ x ∈ page ∨ LastSent pk pages x ∧ ∀ r ∈ page, pk x ≠ pk r := by
  constructor
  · rintro ⟨before, sent, after, heq, hx, hlater⟩
    rcases List.eq_nil_or_concat after with rfl | ⟨after, last, rfl⟩
    · obtain ⟨-, hlast⟩ := List.append_inj' heq rfl
      obtain rfl : page = sent := List.singleton_inj.mp hlast
      exact Or.inl hx
    · rw [List.concat_eq_append] at heq hlater
      rw [← List.cons_append, ← List.append_assoc] at heq
      obtain ⟨rfl, hlast⟩ := List.append_inj' heq rfl
      obtain rfl : page = last := List.singleton_inj.mp hlast
      refine Or.inr ⟨⟨before, sent, after, rfl, hx, fun later hl => hlater later (List.mem_append_left _ hl)⟩, ?_⟩
      exact hlater page (List.mem_append_right _ (List.mem_singleton.mpr rfl))
  · rintro (hx | ⟨⟨before, sent, after, rfl, hx, hlater⟩, hpage⟩)
    · exact ⟨pages, page, [], rfl, hx, fun later hl => absurd hl List.not_mem_nil⟩
    · refine ⟨before, sent, after ++ [page], by rw [List.append_assoc, List.cons_append], hx, fun later hl => ?_⟩
      rcases List.mem_append.mp hl with hl | hl
      · exact hlater later hl
      · exact List.mem_singleton.mp hl ▸ hpage

end LastSent

end Itou.Lib
