import Mathlib.Algebra.BigOperators.Group.List.Basic
import Mathlib.Data.Finset.Card
import Mathlib.Data.Int.Interval

/-!
# What a list of sets leaves uncovered

The elements of a finite set that belong to none of the sets of a list, and how many they are. For days, the sets are
ranges with both bounds.
-/

namespace Itou.Lib

universe u

section Sets

variable {α : Type u} [DecidableEq α]

/-- The elements of `S` that belong to none of the sets. -/
def uncovered (S : Finset α) (sets : List (Finset α)) : Finset α := S.filter fun x => ∀ r ∈ sets, x ∉ r

variable {S T r : Finset α} {sets : List (Finset α)} {x : α}

theorem mem_uncovered : x ∈ uncovered S sets ↔ x ∈ S ∧ ∀ r ∈ sets, x ∉ r := Finset.mem_filter

theorem uncovered_nil (S : Finset α) : uncovered S [] = S := by
  simp [uncovered]

theorem uncovered_cons (S r : Finset α) (sets : List (Finset α)) :
    uncovered S (r :: sets) = uncovered S sets \ r := by
  ext x
  simp only [mem_uncovered, List.forall_mem_cons, Finset.mem_sdiff]
  tauto

theorem uncovered_union (S T : Finset α) (sets : List (Finset α)) :
    uncovered (S ∪ T) sets = uncovered S sets ∪ uncovered T sets := Finset.filter_union ..

/-- A set that meets none of the others is covered by none of them. -/
theorem inter_uncovered_of_disjoint (h : ∀ q ∈ sets, Disjoint r q) : uncovered S sets ∩ r = S ∩ r := by
  ext x
  simp only [Finset.mem_inter, mem_uncovered]
  constructor
  · exact fun ⟨⟨hS, _⟩, hr⟩ => ⟨hS, hr⟩
  · exact fun ⟨hS, hr⟩ => ⟨⟨hS, fun q hq hxq => Finset.disjoint_left.mp (h q hq) hr hxq⟩, hr⟩

/-- One more set, which meets none of the others, covers its own elements. -/
theorem card_uncovered_cons (h : ∀ q ∈ sets, Disjoint r q) :
    (uncovered S (r :: sets)).card + (S ∩ r).card = (uncovered S sets).card := by
  rw [uncovered_cons, ← inter_uncovered_of_disjoint h]
  exact Finset.card_sdiff_add_card_inter _ _

/-- Sets that do not meet cover the sum of their elements. -/
theorem card_uncovered (h : sets.Pairwise Disjoint) :
    (uncovered S sets).card + (sets.map fun r => (S ∩ r).card).sum = S.card := by
  induction sets with
  | nil => rw [uncovered_nil, List.map_nil, List.sum_nil, Nat.add_zero]
  | cons r sets ih =>
      obtain ⟨hr, hsets⟩ := List.pairwise_cons.mp h
      have hcons := card_uncovered_cons (S := S) hr
      have hsum := ih hsets
      rw [List.map_cons, List.sum_cons]
      omega

/-- What is covered of a larger set is no less than what is covered of the smaller one. -/
theorem card_uncovered_le_of_subset (sets : List (Finset α)) (h : S ⊆ T) :
    (uncovered T sets).card + S.card ≤ (uncovered S sets).card + T.card := by
  have hunion : uncovered T sets = uncovered S sets ∪ uncovered (T \ S) sets := by
    rw [← uncovered_union, Finset.union_sdiff_of_subset h]
  have hle : (uncovered (T \ S) sets).card ≤ (T \ S).card := Finset.card_filter_le _ _
  have hadd := Finset.card_sdiff_add_card_eq_card h
  have hcard := Finset.card_union_le (uncovered S sets) (uncovered (T \ S) sets)
  rw [← hunion] at hcard
  omega

end Sets

/-! ## Days -/

/-- The days from one to another, both included. The order is named, since others of the same days do not compute. -/
abbrev daysBetween (a b : Int) : Finset Int := @Finset.Icc Int Int.instLinearOrder.toPreorder _ a b

theorem mem_daysBetween {a b d : Int} : d ∈ daysBetween a b ↔ a ≤ d ∧ d ≤ b := Finset.mem_Icc

theorem card_daysBetween (a b : Int) : (daysBetween a b).card = (b + 1 - a).toNat := Int.card_Icc a b

theorem daysBetween_inter_of_le {a b s e : Int} (hs : a ≤ s) (he : e ≤ b) (t : Int) :
    daysBetween (max t a) b ∩ daysBetween s e = daysBetween (max t s) e := by
  ext d
  simp only [Finset.mem_inter, mem_daysBetween]
  omega

/-- Two ranges do not meet when one of them ends before the other starts. -/
theorem disjoint_daysBetween_of_lt {a b c d : Int} (h : b < c ∨ d < a) :
    Disjoint (daysBetween a b) (daysBetween c d) := by
  rw [Finset.disjoint_left]
  intro x hx hx'
  rw [mem_daysBetween] at hx hx'
  omega

end Itou.Lib
