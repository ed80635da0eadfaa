import Mathlib.Data.List.Chain

/-!
# Journals of changes

A journal of a value has the value before and the value after each change that was recorded.
-/

namespace Itou.Lib

universe u

variable {α : Type u}

structure Change (α : Type u) where
  before : α
  after : α
  deriving DecidableEq

/-- Apply the changes in order. -/
def replay (journal : List (Change α)) (start : α) : α := journal.foldl (fun _ change => change.after) start

/-- The changes follow one another, and applied to the first recorded value they end at the value. -/
structure LeadsTo (journal : List (Change α)) (current : α) : Prop where
  chain : journal.IsChain fun change next => change.after = next.before
  ends : ∀ first ∈ journal.head?, replay journal first.before = current

theorem leadsTo_iff {journal : List (Change α)} {current : α} :
    LeadsTo journal current ↔ (journal.IsChain fun change next => change.after = next.before) ∧
      ∀ first ∈ journal.head?, replay journal first.before = current :=
  ⟨fun h => ⟨h.chain, h.ends⟩, fun h => ⟨h.1, h.2⟩⟩

instance [DecidableEq α] (journal : List (Change α)) (current : α) : Decidable (LeadsTo journal current) :=
  decidable_of_iff _ leadsTo_iff.symm

variable {journal : List (Change α)} {v w : α}

theorem replay_append (change : Change α) (start : α) : replay (journal ++ [change]) start = change.after := by
  simp only [replay, List.foldl_append, List.foldl_cons, List.foldl_nil]

theorem replay_eq_getLast {change : Change α} (start : α) (h : change ∈ journal.getLast?) :
    replay journal start = change.after := by
  obtain ⟨front, rfl⟩ := List.getLast?_eq_some_iff.mp h
  exact replay_append change start

theorem exists_mem_head? (h : journal ≠ []) : ∃ first, first ∈ journal.head? := by
  cases journal with
  | nil => exact absurd rfl h
  | cons first rest => exact ⟨first, rfl⟩

namespace LeadsTo

theorem nil : LeadsTo [] v where
  chain := List.IsChain.nil
  ends := fun first h => absurd h.symm (Option.some_ne_none first)

/-- A journal leads to one value at most, unless nothing was recorded. -/
theorem iff_eq (h : LeadsTo journal v) : LeadsTo journal w ↔ (journal ≠ [] → v = w) := by
  constructor
  · intro hw hne
    obtain ⟨first, hfirst⟩ := exists_mem_head? hne
    exact (h.ends first hfirst).symm.trans (hw.ends first hfirst)
  · intro heq
    refine ⟨h.chain, fun first hfirst => ?_⟩
    have hne : journal ≠ [] := by
      rintro rfl
      exact absurd hfirst.symm (Option.some_ne_none first)
    exact (h.ends first hfirst).trans (heq hne)

/-- A change of the current value is recorded at the end. -/
theorem append (h : LeadsTo journal v) : LeadsTo (journal ++ [⟨v, w⟩]) w where
  chain := by
    refine List.isChain_append.mpr ⟨h.chain, List.IsChain.singleton _, ?_⟩
    rintro last hlast _ ⟨⟩
    have hne : journal ≠ [] := by
      rintro rfl
      exact absurd hlast.symm (Option.some_ne_none last)
    obtain ⟨first, hfirst⟩ := exists_mem_head? hne
    rw [← replay_eq_getLast first.before hlast]
    exact h.ends first hfirst
  ends := fun first _ => replay_append _ first.before

end LeadsTo

end Itou.Lib
