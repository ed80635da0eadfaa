import Itou.Nir.Lemmas.Forms
import Itou.Nir.Forms
import Mathlib.Data.List.Chain

/-!
# Which texts the validator accepts

`validate_nir` accepts the texts that its replacement turns into a number. When the replacement touches the department
only, these are the well-formed ones.
-/

namespace Itou.Nir

open Itou.Lib

variable {mapping : CaseMapping}

/-! ## Replaced pairs -/

section Pairs

variable {a b c d : Char}

/-- The two characters are not the pair. -/
def NotPair (a b x y : Char) : Prop := ¬ (x = a ∧ y = b)

theorem replacePair_eq_self {l : Text} (h : l.IsChain (NotPair a b)) : replacePair a b c d l = l := by
  induction l using replacePair.induct a b with
  | case1 x y l hxy ih => exact absurd hxy (List.isChain_cons_cons.mp h).1
  | case2 x y l hxy ih => rw [replacePair, if_neg hxy, ih (List.isChain_cons_cons.mp h).2]
  | case3 l hl => rw [replacePair.eq_2 _ _ _ _ _ hl]

/-- The first pair is replaced where it is. -/
theorem replacePair_append (hab : a ≠ b) {before after : Text} (h : before.IsChain (NotPair a b)) :
    replacePair a b c d (before ++ a :: b :: after) = before ++ c :: d :: replacePair a b c d after := by
  induction before with
  | nil => rw [List.nil_append, replacePair, if_pos ⟨rfl, rfl⟩]; rfl
  | cons x before ih =>
      cases before with
      | nil =>
          have hx : ¬ (x = a ∧ a = b) := fun hx => hab hx.2
          have hnil := ih List.IsChain.nil
          rw [List.nil_append] at hnil
          rw [List.cons_append, List.nil_append, replacePair, if_neg hx, hnil]
          rfl
      | cons y before =>
          obtain ⟨hx, hrest⟩ := List.isChain_cons_cons.mp h
          rw [List.cons_append, List.cons_append, replacePair, if_neg hx, ← List.cons_append, ih hrest]
          rfl

/-- A text without the pair, as far as its positions are concerned. -/
theorem isChain_of_forall {l : Text} (h : ∀ i, l[i]? = some a → l[i + 1]? ≠ some b) : l.IsChain (NotPair a b) := by
  rw [List.isChain_iff_getElem]
  rintro i hi ⟨ha, hb⟩
  exact h i (by rw [List.getElem?_eq_getElem (by omega), ha]) (by rw [List.getElem?_eq_getElem hi, hb])

end Pairs

/-! ## The department -/

section Department

variable {t : Text} {a b : Char}

/-- Between two parts without pairs, two characters that make no pair with any others. -/
theorem isChain_around {x y : Char} {before after : Text} (hbefore : before.IsChain (NotPair a b))
    (hafter : after.IsChain (NotPair a b)) (hxb : x ≠ b) (hxa : x ≠ a) (hya : y ≠ a) :
    (before ++ x :: y :: after).IsChain (NotPair a b) := by
  refine List.isChain_append.mpr ⟨hbefore, ?_, fun z _ w hw hpair => ?_⟩
  · refine List.isChain_cons_cons.mpr ⟨fun hpair => hxa hpair.1, ?_⟩
    exact List.isChain_cons.mpr ⟨fun z _ hpair => hya hpair.1, hafter⟩
  · obtain rfl : x = w := by simpa using hw
    exact hxb hpair.2

theorem eq_department (h : (t.drop 5).take 2 = [a, b]) : t = t.take 5 ++ a :: b :: t.drop 7 := by
  have hdrop : t.drop 5 = [a, b] ++ t.drop 7 := by
    rw [← h, ← show (t.drop 5).drop 2 = t.drop 7 from List.drop_drop, List.take_append_drop]
  calc t = t.take 5 ++ t.drop 5 := (List.take_append_drop 5 t).symm
    _ = t.take 5 ++ a :: b :: t.drop 7 := by rw [hdrop]; rfl

theorem take_department (h₁ : t[5]? = some a) (h₂ : t[6]? = some b) : (t.drop 5).take 2 = [a, b] := by
  obtain ⟨hlt₁, he₁⟩ := List.getElem?_eq_some_iff.mp h₁
  obtain ⟨hlt₂, he₂⟩ := List.getElem?_eq_some_iff.mp h₂
  rw [List.drop_eq_getElem_cons hlt₁, List.drop_eq_getElem_cons hlt₂, he₁, he₂]
  rfl

theorem getElem?_department (h : (t.drop 5).take 2 = [a, b]) : t[5]? = some a ∧ t[6]? = some b := by
  have hpair : ∀ i, i < 2 → t[5 + i]? = [a, b][i]? := fun i hi => by
    rw [← h, List.getElem?_take_of_lt hi, List.getElem?_drop]
  exact ⟨hpair 0 (by decide), hpair 1 (by decide)⟩

/-- The parts around the department have no pair. -/
theorem isChain_parts (hb : b = 'A' ∨ b = 'B') (h : ∀ i, HasPairAt t i → i = 5) :
    (t.take 5).IsChain (NotPair '2' b) ∧ (t.drop 7).IsChain (NotPair '2' b) := by
  have hpair : ∀ i, t[i]? = some '2' → t[i + 1]? = some b → i = 5 := by
    intro i h₁ h₂
    rcases hb with rfl | rfl
    · exact h i ⟨h₁, Or.inl h₂⟩
    · exact h i ⟨h₁, Or.inr h₂⟩
  constructor
  · refine isChain_of_forall fun i h₁ h₂ => ?_
    have hlt : i + 1 < 5 := by
      have hlen := (List.getElem?_eq_some_iff.mp h₂).1
      simp only [List.length_take] at hlen
      omega
    rw [List.getElem?_take_of_lt (by omega)] at h₁
    rw [List.getElem?_take_of_lt hlt] at h₂
    have := hpair i h₁ h₂
    omega
  · refine isChain_of_forall fun i h₁ h₂ => ?_
    rw [List.getElem?_drop] at h₁ h₂
    have := hpair (7 + i) h₁ h₂
    omega

/-- When the pairs are in the department only, the validator reads the department as digits and nothing else. -/
theorem withAllDigits_eq (h : ∀ i, HasPairAt t i → i = 5) : withAllDigits t = withDepartmentDigits t := by
  obtain ⟨hbeforeA, hafterA⟩ := isChain_parts (b := 'A') (Or.inl rfl) h
  obtain ⟨hbeforeB, hafterB⟩ := isChain_parts (b := 'B') (Or.inr rfl) h
  unfold withAllDigits withDepartmentDigits
  split
  · rename_i hdepartment
    have hfirst : replacePair '2' 'A' '1' '9' t = t.take 5 ++ '1' :: '9' :: t.drop 7 := by
      conv_lhs => rw [eq_department hdepartment]
      rw [replacePair_append (by decide) hbeforeA, replacePair_eq_self hafterA]
    rw [hfirst, replacePair_eq_self (isChain_around hbeforeB hafterB (by decide) (by decide) (by decide))]
    simp
  · rename_i hnotA
    have hnoA : t.IsChain (NotPair '2' 'A') := by
      refine isChain_of_forall fun i h₁ h₂ => hnotA ?_
      obtain rfl := h i ⟨h₁, Or.inl h₂⟩
      exact take_department h₁ h₂
    rw [replacePair_eq_self hnoA]
    split
    · rename_i hdepartment
      conv_lhs => rw [eq_department hdepartment]
      rw [replacePair_append (by decide) hbeforeB, replacePair_eq_self hafterB]
      simp
    · rename_i hnotB
      refine replacePair_eq_self (isChain_of_forall fun i h₁ h₂ => hnotB ?_)
      obtain rfl := h i ⟨h₁, Or.inr h₂⟩
      exact take_department h₁ h₂

/-- A pair that is not in the department leaves a letter where there has to be a digit. -/
theorem not_isNumeric_of_pair {i : Nat} (hi : i ≠ 5) (h : HasPairAt t i) : ¬ IsNumeric (withDepartmentDigits t) := by
  intro hnumeric
  obtain ⟨h₁, h₂⟩ := h
  obtain ⟨x, hx, hdigit⟩ : ∃ x, t[i + 1]? = some x ∧ isDigit x = false := by
    rcases h₂ with h₂ | h₂
    · exact ⟨'A', h₂, rfl⟩
    · exact ⟨'B', h₂, rfl⟩
  have hmem : ∀ y z, (t.drop 5).take 2 = ['2', y] → x ∈ t.take 5 ++ ['1', z] ++ t.drop 7 := by
    intro y z hdepartment
    have h5 := (getElem?_department hdepartment).1
    by_cases hlt : i + 1 < 5
    · refine List.mem_append_left _ (List.mem_append_left _ (List.mem_of_getElem? (i := i + 1) ?_))
      rw [List.getElem?_take_of_lt hlt, hx]
    · have h4 : i ≠ 4 := by
        rintro rfl
        rw [h5, Option.some.injEq] at hx
        rw [← hx] at hdigit
        cases hdigit
      refine List.mem_append_right _ (List.mem_of_getElem? (i := i - 6) ?_)
      rw [List.getElem?_drop, ← hx]
      congr 1
      omega
  have hx' : x ∈ withDepartmentDigits t := by
    unfold withDepartmentDigits
    split
    · rename_i hdepartment
      exact hmem _ _ hdepartment
    · split
      · rename_i hdepartment
        exact hmem _ _ hdepartment
      · exact List.mem_of_getElem? hx
  exact absurd (hnumeric.digits x hx') (by rw [hdigit]; decide)

/-- No department of Corsica makes the example. -/
theorem withDepartmentDigits_eq_example : withDepartmentDigits t = exampleNir ↔ t = exampleNir := by
  constructor
  · intro h
    have hno : ∀ y z, (t.drop 5).take 2 = ['2', y] → t.take 5 ++ ['1', z] ++ t.drop 7 ≠ exampleNir := by
      intro y z hdepartment heq
      have hlen := (List.getElem?_eq_some_iff.mp (getElem?_department hdepartment).1).1
      have h5 : (t.take 5 ++ ['1', z] ++ t.drop 7)[5]? = some '1' := by
        rw [List.append_assoc, List.getElem?_append_right (by rw [List.length_take]; omega), List.length_take]
        rw [show 5 - min 5 t.length = 0 by omega]
        rfl
      rw [heq] at h5
      cases h5
    unfold withDepartmentDigits at h
    split at h
    · rename_i hdepartment
      exact absurd h (hno _ _ hdepartment)
    · split at h
      · rename_i hdepartment
        exact absurd h (hno _ _ hdepartment)
      · exact h
  · rintro rfl
    decide

end Department

/-! ## The validator -/

section Validator

theorem isDigit_char {c : Char} (h : isDigit c) : c.isDigit = true := by
  simp only [isDigit, List.mem_cons, List.not_mem_nil, or_false, decide_eq_true_eq] at h
  rcases h with rfl | rfl | rfl | rfl | rfl | rfl | rfl | rfl | rfl | rfl <;> rfl

theorem int?_eq_decimalValue {l : Text} (hne : l ≠ []) (h : ∀ c ∈ l, isDigit c) : int? l = some (decimalValue l) := by
  have hall : l.all Char.isDigit = true := List.all_eq_true.mpr fun c hc => isDigit_char (h c hc)
  simp only [int?, decimalValue]
  exact if_pos ⟨hne, hall⟩

theorem int?_eq_some {l : Text} {n : Nat} (h : int? l = some n) :
    (∀ c ∈ l, c.isDigit = true) ∧ n = decimalValue l := by
  simp only [int?, Option.ite_none_right_eq_some, Option.some.injEq] at h
  exact ⟨List.all_eq_true.mp h.1.2, h.2.symm⟩

/-- Fifteen characters of which the first one is a sex match the expression when they are digits. -/
theorem nirRegex_of_digits {l : Text} (hlength : l.length = 15) (hdigits : ∀ c ∈ l, isDigit c)
    (hsex : ∀ c ∈ l.head?, c ∈ ['1', '2', '3', '4', '7', '8']) : nirRegex l = true := by
  rcases l with _ | ⟨s, _ | ⟨y₁, _ | ⟨y₂, _ | ⟨m₁, _ | ⟨m₂, _ | ⟨d₁, _ | ⟨d₂, _ | ⟨c₁, _ | ⟨c₂, _ | ⟨c₃, _ | ⟨o₁,
    _ | ⟨o₂, _ | ⟨o₃, _ | ⟨k₁, _ | ⟨k₂, _ | ⟨z, l⟩⟩⟩⟩⟩⟩⟩⟩⟩⟩⟩⟩⟩⟩⟩⟩
  all_goals try (simp only [List.length_cons, List.length_nil] at hlength; omega)
  have hs := hsex s rfl
  simp only [List.forall_mem_cons] at hdigits
  obtain ⟨-, hy₁, hy₂, hm₁, hm₂, hd₁, hd₂, hc₁, hc₂, hc₃, ho₁, ho₂, ho₃, hk₁, hk₂, -⟩ := hdigits
  simp only [nirRegex, List.all_cons, List.all_nil, hs, hy₁, hy₂, hm₁, hm₂, hd₁, hd₂, hc₁, hc₂, hc₃, ho₁, ho₂, ho₃, hk₁,
    hk₂, decide_true, Bool.and_true, Bool.or_true]

/-- What matches the expression, and of which `int` reads the first thirteen characters, has digits only. -/
theorem digits_of_nirRegex {l : Text} {n : Nat} (h : nirRegex l = true) (hnumber : int? (l.take 13) = some n) :
    l.length = 15 ∧ (∀ c ∈ l, isDigit c) ∧ ∀ c ∈ l.head?, c ∈ ['1', '2', '3', '4', '7', '8'] := by
  unfold nirRegex at h
  split at h
  · rename_i s y₁ y₂ m₁ m₂ d₁ d₂ c₁ c₂ c₃ o₁ o₂ o₃ k₁ k₂
    simp only [List.all_cons, List.all_nil, Bool.and_true, Bool.and_eq_true, Bool.or_eq_true, decide_eq_true_eq] at h
    obtain ⟨⟨⟨hs, hy₁, hy₂, hm₁, hm₂⟩, hd⟩, hc₁, hc₂, hc₃, ho₁, ho₂, ho₃, hk₁, hk₂⟩ := h
    have hsex : isDigit s := forall_mem_of_all (p := fun c => isDigit c) (by decide) s hs
    have hd : isDigit d₁ ∧ isDigit d₂ := by
      rcases hd with ⟨_, hd₂⟩ | hd
      · have hletter := (int?_eq_some hnumber).1 d₂ (by simp)
        exact absurd hletter (forall_mem_of_all (p := fun c => ¬ c.isDigit = true) (by decide) d₂ hd₂)
      · exact hd
    refine ⟨rfl, ?_, fun c hc => ?_⟩
    · simp only [List.forall_mem_cons, hsex, hy₁, hy₂, hm₁, hm₂, hd, hc₁, hc₂, hc₃, ho₁, ho₂, ho₃, hk₁, hk₂, true_and,
        List.not_mem_nil, false_imp_iff, implies_true]
    · obtain rfl := Option.some.inj hc
      exact hs
  · exact absurd h Bool.false_ne_true

/-- `validate_nir` accepts a text exactly when the replacement of its pairs makes a number of it. -/
theorem validateNir_isOk_iff {nir : Text} : (validateNir mapping nir).isOk ↔
    IsNumeric (withAllDigits (upper mapping (removeSpaces nir))) ∧
      withAllDigits (upper mapping (removeSpaces nir)) ≠ exampleNir := by
  rw [validateNir, ← exampleNir, ← withAllDigits]
  generalize withAllDigits (upper mapping (removeSpaces nir)) = l
  constructor
  · intro h
    split at h
    · exact absurd h Bool.false_ne_true
    · split at h
      · exact absurd h Bool.false_ne_true
      · split at h
        · exact absurd h Bool.false_ne_true
        · rename_i hregex
          split at h
          · rename_i month controlKey number hmonth hkey hnumber
            have hregex : nirRegex l = true := by simpa using hregex
            obtain ⟨hlength, hdigits, hsex⟩ := digits_of_nirRegex hregex hnumber
            obtain rfl := (int?_eq_some hmonth).2
            obtain rfl := (int?_eq_some hkey).2
            obtain rfl := (int?_eq_some hnumber).2
            split at h
            · exact absurd h Bool.false_ne_true
            · rename_i hrange
              split at h
              · exact absurd h Bool.false_ne_true
              · rename_i hcontrol
                split at h
                · exact absurd h Bool.false_ne_true
                · rename_i hexample
                  exact ⟨⟨hlength, hdigits, hsex, by omega, by omega⟩, hexample⟩
          · exact absurd h Bool.false_ne_true
  · rintro ⟨hnumeric, hexample⟩
    have hlength := hnumeric.length
    have hregex := nirRegex_of_digits hlength hnumeric.digits hnumeric.sex
    have hmonth : int? ((l.drop 3).take 2) = some (decimalValue ((l.drop 3).take 2)) := by
      refine int?_eq_decimalValue (List.ne_nil_of_length_pos (by simp; omega)) fun c hc => ?_
      exact hnumeric.digits c (List.mem_of_mem_drop (List.mem_of_mem_take hc))
    have hkey : int? (l.drop 13) = some (decimalValue (l.drop 13)) :=
      int?_eq_decimalValue (List.ne_nil_of_length_pos (by simp; omega)) fun c hc =>
        hnumeric.digits c (List.mem_of_mem_drop hc)
    have hnumber : int? (l.take 13) = some (decimalValue (l.take 13)) :=
      int?_eq_decimalValue (List.ne_nil_of_length_pos (by simp; omega)) fun c hc =>
        hnumeric.digits c (List.mem_of_mem_take hc)
    have hrange := hnumeric.month
    have hcontrol := hnumeric.controlKey
    simp only [hlength, hregex, hmonth, hkey, hnumber, lt_irrefl, if_false, Bool.not_true, Bool.false_eq_true]
    rw [if_neg (by omega), if_neg (by omega), if_neg hexample]
    rfl

end Validator

/-! ## The accessors -/

section Accessors

variable {t : Text}

/-- The department is the only part that is read in another way. -/
theorem take_withDepartmentDigits (h : (withDepartmentDigits t).length = 15) :
    t.length = 15 ∧ (withDepartmentDigits t).take 5 = t.take 5 := by
  have hparts : ∀ y z, (t.drop 5).take 2 = ['2', y] → (t.take 5 ++ ['1', z] ++ t.drop 7).length = 15 →
      t.length = 15 ∧ (t.take 5 ++ ['1', z] ++ t.drop 7).take 5 = t.take 5 := by
    intro y z hdepartment hlength
    have hlen := (List.getElem?_eq_some_iff.mp (getElem?_department hdepartment).2).1
    simp only [List.length_append, List.length_take, List.length_drop, List.length_cons, List.length_nil] at hlength
    refine ⟨by omega, ?_⟩
    rw [List.append_assoc, List.take_append_of_le_length (by rw [List.length_take]; omega), List.take_take,
      Nat.min_self]
  unfold withDepartmentDigits at h ⊢
  split
  · rename_i hdepartment
    rw [if_pos hdepartment] at h
    exact hparts _ _ hdepartment h
  · rename_i hnotA
    rw [if_neg hnotA] at h
    split
    · rename_i hdepartment
      rw [if_pos hdepartment] at h
      exact hparts _ _ hdepartment h
    · rename_i hnotB
      rw [if_neg hnotB] at h
      exact ⟨h, rfl⟩

theorem int?_part_of_isNumeric (h : IsNumeric (withDepartmentDigits t)) {i : Nat} (hi : i ≤ 3) :
    ∃ n, int? ((t.drop i).take 2) = some n := by
  obtain ⟨hlength, htake⟩ := take_withDepartmentDigits h.length
  have hpart : (t.drop i).take 2 = ((t.take 5).take (i + 2)).drop i := by
    rw [List.take_take, List.drop_take, Nat.min_eq_left (by omega), Nat.add_sub_cancel_left]
  refine ⟨_, int?_eq_decimalValue (List.ne_nil_of_length_pos (by simp; omega)) fun c hc => ?_⟩
  rw [hpart, ← htake] at hc
  exact h.digits c (List.mem_of_mem_take (List.mem_of_mem_take (List.mem_of_mem_drop hc)))

theorem sex_of_isNumeric (h : IsNumeric (withDepartmentDigits t)) : ∃ s, sex t = some s := by
  obtain ⟨hlength, htake⟩ := take_withDepartmentDigits h.length
  cases t with
  | nil => cases hlength
  | cons c l =>
      have hhead : (withDepartmentDigits (c :: l)).head? = some c := by
        have hfirst := congrArg List.head? htake
        rwa [List.head?_take, List.head?_take] at hfirst
      have hsex := h.sex c hhead
      simp only [List.mem_cons, List.not_mem_nil, or_false] at hsex
      rcases hsex with rfl | rfl | rfl | rfl | rfl | rfl <;> exact ⟨_, rfl⟩

/-- No accessor raises on a well-formed number. -/
theorem cleanFields_ne_valueError (h : IsWellFormed t) (title : Option Title) (birthdate : Option (Nat × Nat)) :
    cleanNirTitleBirthdateFields t title birthdate ≠ .error .valueError := by
  obtain ⟨s, hsex⟩ := sex_of_isNumeric h.1
  obtain ⟨year, hyear⟩ := int?_part_of_isNumeric h.1 (i := 1) (by decide)
  obtain ⟨month, hmonth⟩ := int?_part_of_isNumeric h.1 (i := 3) (by decide)
  have hbirthYear : birthYear t = some year := hyear
  have hbirthMonth : birthMonth t = some month := hmonth
  unfold cleanNirTitleBirthdateFields
  cases title <;> cases birthdate <;>
    simp only [hsex, hbirthYear, hbirthMonth, pure, bind, Except.bind, Except.pure, throw, throwThe,
      MonadExceptOf.throw]
  all_goals repeat' split
  all_goals
    intro h
    cases h

end Accessors

end Itou.Nir
