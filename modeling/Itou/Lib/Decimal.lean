import Mathlib.Algebra.Group.Nat.Defs
import Mathlib.Data.Char
import Mathlib.Data.List.Lex

/-!
# Decimal numbers of a fixed width

Numbers written with leading zeros, as `f"{n:07d}"` does. Among digit strings of one width the text order is
the order of the values.
-/

namespace Itou.Lib

/-- `n` in decimal, with leading zeros up to the width. -/
def zeroPadded (width n : Nat) : List Char := (Nat.toDigits 10 n).leftpad width '0'

/-- The value of a string of digits. -/
def valueOf (digits : List Char) : Nat := Nat.ofDigitChars 10 digits 0

/-- `int(text)` on a text of letters and digits. -/
def parseInt (text : List Char) : Option Nat :=
  if text ≠ [] ∧ text.all Char.isDigit = true then some (valueOf text) else none

/-- A string of `width` digits. -/
def IsDecimal (width : Nat) (text : List Char) : Prop := text.length = width ∧ text.all Char.isDigit = true

instance (width : Nat) (text : List Char) : Decidable (IsDecimal width text) :=
  inferInstanceAs (Decidable (_ ∧ _))

variable {width n : Nat} {c : Char} {a b text : List Char}

theorem valueOf_cons : valueOf (c :: text) = 10 ^ text.length * (c.toNat - '0'.toNat) + valueOf text := by
  rw [valueOf, Nat.ofDigitChars_cons, Nat.ofDigitChars_eq_ofDigitChars_zero, Nat.mul_zero, Nat.zero_add]
  rfl

theorem valueOf_zeroPadded : valueOf (zeroPadded width n) = n := by
  rw [valueOf, zeroPadded, List.leftpad, Nat.ofDigitChars_append, Nat.ofDigitChars_replicate_zero, Nat.mul_zero,
    Nat.ofDigitChars_ten_toDigits]

theorem isDecimal_zeroPadded (hwidth : 0 < width) (hn : n < 10 ^ width) :
    IsDecimal width (zeroPadded width n) := by
  refine ⟨?_, ?_⟩
  · have hlength := (Nat.length_toDigits_le_iff (by decide) hwidth).mpr hn
    rw [zeroPadded, List.length_leftpad]
    exact Nat.max_eq_left hlength
  · refine List.all_eq_true.mpr fun c hc => ?_
    simp only [zeroPadded, List.leftpad, List.mem_append, List.mem_replicate] at hc
    rcases hc with ⟨_, rfl⟩ | hc
    · decide
    · exact Nat.isDigit_of_mem_toDigits (by decide) (by decide) hc

theorem parseInt_of_isDecimal (hwidth : 0 < width) (h : IsDecimal width text) :
    parseInt text = some (valueOf text) := by
  have hne : text ≠ [] := List.ne_nil_of_length_pos (h.1 ▸ hwidth)
  rw [parseInt, if_pos ⟨hne, h.2⟩]

/-! ## Order -/

theorem toNat_of_isDigit (hc : c.isDigit) : '0'.toNat ≤ c.toNat ∧ c.toNat ≤ '9'.toNat := by
  simp only [Char.isDigit, Bool.and_eq_true, decide_eq_true_eq, UInt32.le_iff_toNat_le] at hc
  exact hc

theorem IsDecimal.head (h : IsDecimal width (c :: text)) : '0'.toNat ≤ c.toNat ∧ c.toNat ≤ '9'.toNat :=
  toNat_of_isDigit (List.all_eq_true.mp h.2 c List.mem_cons_self)

theorem IsDecimal.tail (h : IsDecimal (width + 1) (c :: text)) : IsDecimal width text := by
  have hall := h.2
  rw [List.all_cons, Bool.and_eq_true] at hall
  exact ⟨Nat.succ.inj h.1, hall.2⟩

theorem IsDecimal.valueOf_lt (h : IsDecimal width text) : valueOf text < 10 ^ width := by
  induction text generalizing width with
  | nil => exact Nat.pow_pos (by decide)
  | cons c text ih =>
      cases width with
      | zero => exact absurd h.1 (Nat.succ_ne_zero _)
      | succ width =>
          have htail := ih h.tail
          have hc : c.toNat - '0'.toNat ≤ 9 := Nat.sub_le_of_le_add h.head.2
          rw [valueOf_cons, h.tail.1, Nat.pow_succ]
          calc 10 ^ width * (c.toNat - '0'.toNat) + valueOf text
              < 10 ^ width * (c.toNat - '0'.toNat) + 10 ^ width := Nat.add_lt_add_left htail _
            _ = 10 ^ width * (c.toNat - '0'.toNat + 1) := (Nat.mul_succ _ _).symm
            _ ≤ 10 ^ width * 10 := Nat.mul_le_mul_left _ (Nat.succ_le_succ hc)

/-- The text order is the order of the values. -/
theorem IsDecimal.lt_of_valueOf_lt (ha : IsDecimal width a) (hb : IsDecimal width b)
    (hlt : valueOf a < valueOf b) : a < b := by
  induction width generalizing a b with
  | zero =>
      rw [List.length_eq_zero_iff.mp ha.1, List.length_eq_zero_iff.mp hb.1] at hlt
      exact absurd hlt (Nat.lt_irrefl _)
  | succ width ih =>
      obtain ⟨c, a', rfl⟩ := List.exists_cons_of_length_eq_add_one ha.1
      obtain ⟨d, b', rfl⟩ := List.exists_cons_of_length_eq_add_one hb.1
      rw [valueOf_cons, valueOf_cons, ha.tail.1, hb.tail.1] at hlt
      have hc := ha.head
      rcases Nat.lt_trichotomy c.toNat d.toNat with hcd | hcd | hcd
      · exact List.Lex.rel hcd
      · obtain rfl : c = d := Char.toNat_inj.mp hcd
        exact List.Lex.cons (ih ha.tail hb.tail (Nat.lt_of_add_lt_add_left hlt))
      · -- A greater first digit outweighs all the others.
        have hb' := hb.tail.valueOf_lt
        have hd := hb.head
        have hdc : d.toNat - '0'.toNat + 1 ≤ c.toNat - '0'.toNat := by omega
        have hmul : 10 ^ width * (d.toNat - '0'.toNat) + 10 ^ width ≤ 10 ^ width * (c.toNat - '0'.toNat) :=
          Nat.mul_succ (10 ^ width) _ ▸ Nat.mul_le_mul_left (10 ^ width) hdc
        omega

theorem IsDecimal.valueOf_le (ha : IsDecimal width a) (hb : IsDecimal width b) (hle : a ≤ b) :
    valueOf a ≤ valueOf b := by
  rcases Nat.lt_or_ge (valueOf b) (valueOf a) with hlt | hge
  · exact (not_lt_of_ge hle (hb.lt_of_valueOf_lt ha hlt)).elim
  · exact hge

end Itou.Lib
