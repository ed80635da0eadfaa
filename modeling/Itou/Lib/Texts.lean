import Mathlib.Data.List.Basic
import Mathlib.Data.List.Defs

/-!
# Texts

Operations on texts that forms use, with the characters that Python calls whitespace. The upper case of the characters
that are not ASCII is a table of Unicode: `CaseMapping` says of it what the proofs need.

`re.sub` of a regular expression that matches no empty text: the text is read from left to right, and each match is
replaced. A separator that no match reads splits the work.
-/

namespace Itou.Lib

/-- `str.isspace` on one character. -/
def isSpace (c : Char) : Bool :=
  ('\t' ≤ c && c ≤ '\r') || ('\x1c' ≤ c && c ≤ ' ') || c = '\u0085' || c = '\u00a0' || c = '\u1680' ||
    ('\u2000' ≤ c && c ≤ '\u200a') || c = '\u2028' || c = '\u2029' || c = '\u202f' || c = '\u205f' ||
    c = '\u3000'

/-- `str.lstrip`. -/
def lstrip (l : List Char) : List Char := l.dropWhile isSpace

/-- `str.strip`. -/
def strip (l : List Char) : List Char := (lstrip (lstrip l).reverse).reverse

/-- `str.upper` on one character. The upper case of a character that is not ASCII has another such character, or one
of the letters F, I and S (that of `ß` is `SS`). -/
structure CaseMapping where
  upper : Char → List Char
  upper_ascii : ∀ c, c.val < 128 → upper c = [c.toUpper]
  upper_other : ∀ c, 128 ≤ c.val → ∃ d ∈ upper c, 128 ≤ d.val ∨ d = 'F' ∨ d = 'I' ∨ d = 'S'

/-- The mapping that changes ASCII characters only. -/
def CaseMapping.ascii : CaseMapping where
  upper c := [c.toUpper]
  upper_ascii _ _ := rfl
  upper_other c hc := by
    have hself : c.toUpper = c := by
      delta Char.toUpper
      rw [dif_neg]
      rintro ⟨_, hz⟩
      exact absurd (UInt32.le_trans hc hz) (by decide)
    exact ⟨c, by rw [hself]; exact List.mem_singleton_self c, Or.inl hc⟩

/-- `str.upper`. -/
def upper (mapping : CaseMapping) (l : List Char) : List Char := l.flatMap mapping.upper

/-- `str.replace(" ", "")`. -/
def removeSpaces (l : List Char) : List Char := l.filter (· ≠ ' ')

/-- `str.replace` of the text of the characters `a` and `b` by that of `c` and `d`. -/
def replacePair (a b c d : Char) : List Char → List Char
  | x :: y :: l =>
      if x = a ∧ y = b then c :: d :: replacePair a b c d l
      else x :: replacePair a b c d (y :: l)
  | l => l

/-- `value in text`, on two texts. -/
def isIn (value text : String) : Bool := text.toList.tails.any fun t => value.toList.isPrefixOf t

/-- `int`. `none` when it raises `ValueError`. -/
def int? (l : List Char) : Option Nat :=
  if l ≠ [] ∧ l.all Char.isDigit then
    some (l.foldl (fun n c => 10 * n + (c.toNat - '0'.toNat)) 0)
  else none

/-! ## Facts -/

/-- What holds of each member of a closed list is decided member by member. -/
theorem forall_mem_of_all {α : Type} {p : α → Prop} [DecidablePred p] {l : List α}
    (h : l.all (fun a => decide (p a)) = true) : ∀ a ∈ l, p a :=
  fun a ha => of_decide_eq_true (List.all_eq_true.1 h a ha)

/-- The visible characters of ASCII are no whitespace. -/
theorem isSpace_of_visible {c : Char} (hge : 33 ≤ c.toNat) (hle : c.toNat ≤ 126) : isSpace c = false := by
  have hspaces : ∀ d ∈ ['\u0085', '\u00a0', '\u1680', '\u2028', '\u2029', '\u202f', '\u205f', '\u3000'], c ≠ d := by
    rintro d hd rfl
    exact forall_mem_of_all (p := fun d => ¬ d.toNat ≤ 126) (by decide) c hd hle
  have hrange : ∀ d e : Char, e.toNat < 33 ∨ 126 < d.toNat → ¬ (d ≤ c ∧ c ≤ e) := by
    rintro d e hde ⟨hd, he⟩
    simp only [Char.le_def, UInt32.le_iff_toNat_le, Char.toNat_val] at hd he
    omega
  rw [Bool.eq_false_iff]
  intro hspace
  simp only [isSpace, Bool.or_eq_true, Bool.and_eq_true, decide_eq_true_eq] at hspace
  simp only [List.forall_mem_cons] at hspaces
  obtain ⟨h₁, h₂, h₃, h₄, h₅, h₆, h₇, h₈, -⟩ := hspaces
  simp only [h₁, h₂, h₃, h₄, h₅, h₆, h₇, h₈, hrange _ _ (Or.inl (by decide : '\r'.toNat < 33)),
    hrange _ _ (Or.inl (by decide : ' '.toNat < 33)), hrange _ _ (Or.inr (by decide : 126 < '\u2000'.toNat)),
    or_self] at hspace

theorem lstrip_eq_self {l : List Char} (h : ∀ c ∈ l.head?, isSpace c = false) : lstrip l = l := by
  cases l with
  | nil => rfl
  | cons c l => rw [lstrip, List.dropWhile_cons_of_neg (by simp [h c rfl])]

theorem head?_lstrip (l : List Char) : ∀ c ∈ (lstrip l).head?, isSpace c = false := by
  intro c hc
  have hnot := List.head?_dropWhile_not isSpace l
  rw [← lstrip, Option.mem_def.mp hc] at hnot
  exact hnot

/-- A text that starts with no space still starts with none when its end is stripped. -/
theorem head?_reverse_lstrip_reverse {l : List Char} (h : ∀ c ∈ l.head?, isSpace c = false) :
    ∀ c ∈ (lstrip l.reverse).reverse.head?, isSpace c = false := by
  intro c hc
  have hprefix : (lstrip l.reverse).reverse <+: l := by
    have hsuffix := (List.dropWhile_suffix isSpace (l := l.reverse)).reverse
    rwa [List.reverse_reverse] at hsuffix
  obtain ⟨rest, hrest⟩ := hprefix
  refine h c ?_
  rw [← hrest, Option.mem_def, List.head?_append, Option.mem_def.mp hc]
  rfl

@[simp] theorem strip_strip (l : List Char) : strip (strip l) = strip l := by
  have hstart : lstrip (strip l) = strip l := lstrip_eq_self (head?_reverse_lstrip_reverse (head?_lstrip l))
  have hend : lstrip (strip l).reverse = (strip l).reverse := by
    rw [strip, List.reverse_reverse]
    exact lstrip_eq_self (head?_lstrip _)
  rw [strip, hstart, hend, List.reverse_reverse]

theorem head?_strip (l : List Char) : ∀ c ∈ (strip l).head?, isSpace c = false :=
  head?_reverse_lstrip_reverse (head?_lstrip l)

/-- A text that starts with no whitespace keeps its first character. -/
theorem strip_cons {c : Char} (hc : isSpace c = false) (l : List Char) : ∃ rest, strip (c :: l) = c :: rest := by
  have hstart : lstrip (c :: l) = c :: l := List.dropWhile_cons_of_neg (by rw [hc]; exact Bool.false_ne_true)
  have hprefix : strip (c :: l) <+: c :: l := by
    have hsuffix := (List.dropWhile_suffix isSpace (l := (c :: l).reverse)).reverse
    rw [List.reverse_reverse] at hsuffix
    rwa [strip, hstart]
  cases hstrip : strip (c :: l) with
  | nil =>
      have hdrop : lstrip (l.reverse ++ [c]) ≠ [] := by
        rw [lstrip, List.dropWhile_append]
        split
        · rw [List.dropWhile_cons_of_neg (by rw [hc]; exact Bool.false_ne_true)]
          exact List.cons_ne_nil c []
        · exact List.append_ne_nil_of_right_ne_nil _ (List.cons_ne_nil c [])
      rw [strip, hstart, List.reverse_eq_nil_iff, List.reverse_cons] at hstrip
      exact absurd hstrip hdrop
  | cons d rest =>
      rw [hstrip, List.cons_prefix_cons] at hprefix
      obtain ⟨rfl, -⟩ := hprefix
      exact ⟨rest, rfl⟩

theorem strip_eq_self {l : List Char} (h : ∀ c ∈ l, isSpace c = false) : strip l = l := by
  have hreverse : lstrip l.reverse = l.reverse :=
    lstrip_eq_self fun c hc => h c (List.mem_reverse.mp (List.mem_of_mem_head? hc))
  rw [strip, lstrip_eq_self fun c hc => h c (List.mem_of_mem_head? hc), hreverse, List.reverse_reverse]

/-- The spaces of a text may be removed before it is stripped. -/
theorem lstrip_removeSpaces (l : List Char) : lstrip (removeSpaces l) = removeSpaces (lstrip l) := by
  induction l with
  | nil => rfl
  | cons c l ih =>
      by_cases hspace : isSpace c
      · have hdrop : lstrip (c :: l) = lstrip l := List.dropWhile_cons_of_pos hspace
        rw [hdrop, ← ih]
        by_cases hc : c = ' '
        · rw [removeSpaces, List.filter_cons_of_neg (by simpa using hc)]
          rfl
        · rw [removeSpaces, List.filter_cons_of_pos (by simpa using hc), lstrip, List.dropWhile_cons_of_pos hspace]
          rfl
      · have hc : c ≠ ' ' := by
          rintro rfl
          exact hspace rfl
        rw [lstrip, removeSpaces, List.filter_cons_of_pos (by simpa using hc), List.dropWhile_cons_of_neg hspace,
          lstrip, List.dropWhile_cons_of_neg hspace, removeSpaces, List.filter_cons_of_pos (by simpa using hc)]

theorem strip_removeSpaces (l : List Char) : strip (removeSpaces l) = removeSpaces (strip l) := by
  have hreverse : ∀ l, (removeSpaces l).reverse = removeSpaces l.reverse := fun l => List.filter_reverse.symm
  rw [strip, lstrip_removeSpaces, hreverse, lstrip_removeSpaces, hreverse, strip]

/-- A whitespace at the end of a text is stripped. -/
@[simp] theorem strip_concat {l : List Char} {c : Char} (hc : isSpace c = true) : strip (l ++ [c]) = strip l := by
  have hdrop : ∀ l' : List Char, lstrip (c :: l') = lstrip l' := fun l' => List.dropWhile_cons_of_pos hc
  have hstart : lstrip (l ++ [c]) = lstrip l ++ [c] ∨ lstrip (l ++ [c]) = [] ∧ lstrip l = [] := by
    induction l with
    | nil => exact Or.inr ⟨hdrop [], rfl⟩
    | cons d l ih =>
        by_cases hd : isSpace d
        · have hskip : ∀ l' : List Char, lstrip (d :: l') = lstrip l' := fun l' => List.dropWhile_cons_of_pos hd
          rwa [List.cons_append, hskip, hskip]
        · have hkeep : ∀ l' : List Char, lstrip (d :: l') = d :: l' := fun l' => List.dropWhile_cons_of_neg hd
          exact Or.inl (by rw [List.cons_append, hkeep, hkeep, List.cons_append])
  rcases hstart with h | ⟨h, h'⟩
  · rw [strip, h, List.reverse_append, List.reverse_singleton, List.singleton_append, hdrop, strip]
  · rw [strip, strip, h, h']

theorem space_notMem_removeSpaces (l : List Char) : ' ' ∉ removeSpaces l := by
  simp [removeSpaces]

theorem removeSpaces_eq_self {l : List Char} (h : ' ' ∉ l) : removeSpaces l = l := by
  rw [removeSpaces, List.filter_eq_self]
  rintro c hc
  simp only [ne_eq, decide_eq_true_eq]
  rintro rfl
  exact h hc

@[simp] theorem length_replacePair (a b c d : Char) (l : List Char) : (replacePair a b c d l).length = l.length := by
  induction l using replacePair.induct a b with
  | case1 x y l hxy ih => rw [replacePair, if_pos hxy, List.length_cons, List.length_cons, ih]; rfl
  | case2 x y l hxy ih => rw [replacePair, if_neg hxy, List.length_cons, ih]; rfl
  | case3 l hl => rw [replacePair.eq_2 _ _ _ _ _ hl]

/-- A character that was replaced is one of the pair. -/
theorem mem_replacePair {a b c d : Char} {l : List Char} {x : Char} (h : x ∈ l) :
    x ∈ replacePair a b c d l ∨ x = a ∨ x = b := by
  induction l using replacePair.induct a b with
  | case1 y z l hyz ih =>
      rw [replacePair, if_pos hyz]
      rcases List.mem_cons.mp h with rfl | h
      · exact Or.inr (Or.inl hyz.1)
      · rcases List.mem_cons.mp h with rfl | h
        · exact Or.inr (Or.inr hyz.2)
        · exact (ih h).imp_left fun h => List.mem_cons_of_mem _ (List.mem_cons_of_mem _ h)
  | case2 y z l hyz ih =>
      rw [replacePair, if_neg hyz]
      rcases List.mem_cons.mp h with rfl | h
      · exact Or.inl List.mem_cons_self
      · exact (ih h).imp_left (List.mem_cons_of_mem _)
  | case3 l hl =>
      rw [replacePair.eq_2 _ _ _ _ _ hl]
      exact Or.inl h

/-! ## Upper case -/

variable {mapping : CaseMapping}

/-- A text of ASCII characters is put in upper case one character after the other. -/
theorem upper_eq_map {l : List Char} (h : ∀ c ∈ l, c.val < 128) : upper mapping l = l.map Char.toUpper := by
  induction l with
  | nil => rfl
  | cons c l ih =>
      rw [upper, List.flatMap_cons, mapping.upper_ascii c (h c List.mem_cons_self)]
      exact congrArg (c.toUpper :: ·) (ih fun d hd => h d (List.mem_cons_of_mem c hd))

/-- When the upper case of a text has none of F, I and S and is ASCII, the text is ASCII. -/
theorem ascii_of_upper {l : List Char}
    (h : ∀ d ∈ upper mapping l, d.val < 128 ∧ d ≠ 'F' ∧ d ≠ 'I' ∧ d ≠ 'S') : ∀ c ∈ l, c.val < 128 := by
  intro c hc
  refine Decidable.byContradiction fun hnot => ?_
  obtain ⟨d, hd, hother⟩ := mapping.upper_other c (UInt32.not_lt.mp hnot)
  obtain ⟨hascii, hF, hI, hS⟩ := h d (List.mem_flatMap.mpr ⟨c, hc, hd⟩)
  rcases hother with hge | rfl | rfl | rfl
  · exact absurd hascii (UInt32.not_lt.mpr hge)
  · exact hF rfl
  · exact hI rfl
  · exact hS rfl

/-! ## Substitutions -/

/-- A match that starts with the text: what replaces it, and how many characters of it follow the first one. A match may
depend on the character before it. -/
abbrev Pattern := Option Char → List Char → Option (List Char × Nat)

/-- The text from a position on, after the characters of the last match that are left to skip. -/
def subFrom (p : Pattern) : Option Char → Nat → List Char → List Char
  | _, _, [] => []
  | _, n + 1, c :: l => subFrom p (some c) n l
  | before, 0, c :: l =>
      match p before (c :: l) with
      | some (text, n) => text ++ subFrom p (some c) n l
      | none => c :: subFrom p (some c) 0 l

/-- `re.sub`. -/
def sub (p : Pattern) (l : List Char) : List Char := subFrom p none 0 l

variable {p : Pattern} {s : Char}

@[simp] theorem subFrom_nil (before : Option Char) (n : Nat) : subFrom p before n [] = [] := by
  cases n <;> rfl

theorem subFrom_of_none {before : Option Char} {c : Char} {l : List Char} (h : p before (c :: l) = none) :
    subFrom p before 0 (c :: l) = c :: subFrom p (some c) 0 l := by
  rw [subFrom, h]

theorem subFrom_of_some {before : Option Char} {c : Char} {l text : List Char} {n : Nat}
    (h : p before (c :: l) = some (text, n)) :
    subFrom p before 0 (c :: l) = text ++ subFrom p (some c) n l := by
  rw [subFrom, h]

/-- The rest of a match is skipped. -/
theorem subFrom_skip (before : Option Char) (l rest : List Char) :
    subFrom p before l.length (l ++ rest) = subFrom p (l.getLast?.or before) 0 rest := by
  induction l generalizing before with
  | nil => rfl
  | cons c l ih =>
      rw [List.length_cons, List.cons_append, subFrom, ih, List.getLast?_cons]
      cases l.getLast? <;> rfl

/-- A text where no match starts is copied. -/
theorem subFrom_append {before : Option Char} {l rest : List Char}
    (h : ∀ before l₁ l₂, l = l₁ ++ l₂ → l₂ ≠ [] → p before (l₂ ++ rest) = none) :
    subFrom p before 0 (l ++ rest) = l ++ subFrom p (l.getLast?.or before) 0 rest := by
  induction l generalizing before with
  | nil => rfl
  | cons c l ih =>
      have hc : p before (c :: (l ++ rest)) = none := h before [] (c :: l) rfl (List.cons_ne_nil c l)
      rw [List.cons_append, subFrom_of_none hc, ih, List.getLast?_cons, List.cons_append]
      · cases l.getLast? <;> rfl
      · rintro before l₁ l₂ rfl
        exact h before (c :: l₁) l₂ rfl

theorem sub_eq_self {l : List Char} (h : ∀ before l₁ l₂, l = l₁ ++ l₂ → l₂ ≠ [] → p before l₂ = none) :
    sub p l = l := by
  have happend := @subFrom_append p none l [] fun before l₁ l₂ heq hne => by
    rw [List.append_nil]
    exact h before l₁ l₂ heq hne
  rwa [List.append_nil, subFrom_nil, List.append_nil] at happend

/-! ## Separators -/

/-- No match reads the character: not to start, not to go on, and not to look around. -/
structure Pattern.Separated (p : Pattern) (s : Char) : Prop where
  start : ∀ before l, p before (s :: l) = none
  before : ∀ l, p (some s) l = p none l
  after : ∀ before l rest, l ≠ [] → p before (l ++ s :: rest) = p before l
  short : ∀ before c l text n, p before (c :: l) = some (text, n) → n ≤ l.length

theorem subFrom_separated (h : p.Separated s) (before : Option Char) {n : Nat} {l : List Char} (hn : n ≤ l.length)
    (rest : List Char) : subFrom p before n (l ++ s :: rest) = subFrom p before n l ++ s :: sub p rest := by
  have hsome (l : List Char) : subFrom p (some s) 0 l = sub p l := by
    cases l with
    | nil => rw [sub, subFrom_nil, subFrom_nil]
    | cons c l => rw [sub, subFrom, subFrom, h.before]
  induction l generalizing before n with
  | nil =>
      obtain rfl : n = 0 := Nat.le_zero.mp hn
      rw [List.nil_append, subFrom_of_none (h.start before rest), hsome, subFrom_nil, List.nil_append]
  | cons c l ih =>
      cases n with
      | succ n => exact ih (some c) (Nat.le_of_succ_le_succ hn)
      | zero =>
          have hafter := h.after before (c :: l) rest (List.cons_ne_nil c l)
          cases hp : p before (c :: l) with
          | none =>
              rw [hp, List.cons_append] at hafter
              rw [List.cons_append, subFrom_of_none hafter, subFrom_of_none hp, ih _ (Nat.zero_le _), List.cons_append]
          | some r =>
              obtain ⟨text, n⟩ := r
              rw [hp, List.cons_append] at hafter
              rw [List.cons_append, subFrom_of_some hafter, subFrom_of_some hp, ih _ (h.short _ _ _ _ _ hp),
                List.append_assoc]

/-- The texts between separators are read one by one. -/
theorem sub_separated (h : p.Separated s) (l rest : List Char) :
    sub p (l ++ s :: rest) = sub p l ++ s :: sub p rest :=
  subFrom_separated h none (Nat.zero_le _) rest

theorem sub_intercalate (h : p.Separated s) (ls : List (List Char)) :
    sub p ([s].intercalate ls) = [s].intercalate (ls.map (sub p)) := by
  induction ls with
  | nil => rfl
  | cons l ls ih =>
      cases ls with
      | nil => simp
      | cons l' ls =>
          simp only [List.intercalate_cons_cons, List.map_cons, List.append_assoc, List.singleton_append] at ih ⊢
          rw [sub_separated h, ih]

end Itou.Lib
