import Itou.Lib.Texts
import Mathlib.Data.List.TakeWhile

/-!
# Words

`str.split` on whitespace and on a separator, and the case of the characters of a word.
-/

namespace Itou.Lib

universe u

/-! ## Case -/

/-- `str.lower` and `str.upper` on one character. A whitespace has no case, and no other character becomes one. -/
structure Casing extends CaseMapping where
  lower : Char → List Char
  upper_space : ∀ c, isSpace c = true → upper c = [c]
  upper_word : ∀ c, isSpace c = false → ∀ d ∈ upper c, isSpace d = false

/-- The casing that changes ASCII characters only. -/
def Casing.ascii : Casing where
  toCaseMapping := .ascii
  lower c := [c.toLower]
  upper_space c hc := by
    have hself : c.toUpper = c := by
      delta Char.toUpper
      rw [dif_neg]
      rintro ⟨hge, hle⟩
      have hword := isSpace_of_visible (Nat.le_trans (by decide) (UInt32.le_iff_toNat_le.mp hge))
        (Nat.le_trans (UInt32.le_iff_toNat_le.mp hle) (by decide))
      rw [hc] at hword
      cases hword
    exact congrArg (· :: []) hself
  upper_word c hc d hd := by
    obtain rfl : d = c.toUpper := List.mem_singleton.mp hd
    delta Char.toUpper
    split
    · rename_i hlower
      have hge : 97 ≤ c.val.toNat := UInt32.le_iff_toNat_le.mp hlower.1
      have hle : c.val.toNat ≤ 122 := UInt32.le_iff_toNat_le.mp hlower.2
      have hval : (c.val + ('A'.val - 'a'.val)).toNat = c.val.toNat - 32 := by
        rw [UInt32.toNat_add, show ('A'.val - 'a'.val).toNat = 2 ^ 32 - 32 by decide]
        omega
      refine isSpace_of_visible (c := ⟨c.val + ('A'.val - 'a'.val), _⟩) ?_ ?_
      · exact Nat.le_trans (by omega) (Nat.le_of_eq hval.symm)
      · exact Nat.le_trans (Nat.le_of_eq hval) (by omega)
    · exact hc

/-- `str.lower`. -/
def lower (casing : Casing) (l : List Char) : List Char := l.flatMap casing.lower

theorem CaseMapping.upper_ne_nil (mapping : CaseMapping) (c : Char) : mapping.upper c ≠ [] := by
  by_cases hc : c.val < 128
  · rw [mapping.upper_ascii c hc]
    exact List.cons_ne_nil _ _
  · obtain ⟨d, hd, -⟩ := mapping.upper_other c (UInt32.not_lt.mp hc)
    exact List.ne_nil_of_mem hd

theorem upper_eq_nil {mapping : CaseMapping} {l : List Char} : upper mapping l = [] ↔ l = [] := by
  cases l with
  | nil => exact iff_of_true rfl rfl
  | cons c l =>
      refine iff_of_false ?_ (List.cons_ne_nil c l)
      rw [upper, List.flatMap_cons, List.append_eq_nil_iff]
      exact fun h => mapping.upper_ne_nil c h.1

/-! ## Words -/

/-- `str.split(maxsplit=1)`: the first word, and the rest of the text, which is empty when there is no other word. -/
def splitOnce (l : List Char) : Option (List Char × List Char) :=
  match lstrip l with
  | [] => none
  | c :: l => some ((c :: l).takeWhile fun c => !isSpace c, lstrip ((c :: l).dropWhile fun c => !isSpace c))

theorem length_lstrip_le (l : List Char) : (lstrip l).length ≤ l.length := (List.dropWhile_suffix isSpace).length_le

theorem length_lt_of_splitOnce {l first rest : List Char} (h : splitOnce l = some (first, rest)) :
    rest.length < l.length := by
  simp only [splitOnce] at h
  split at h
  · cases h
  · rename_i c l' hstrip
    cases h
    have hc : isSpace c = false := head?_lstrip l c (by rw [hstrip]; rfl)
    have hdrop : (c :: l').dropWhile (fun c => !isSpace c) = l'.dropWhile fun c => !isSpace c :=
      List.dropWhile_cons_of_pos (by rw [hc]; rfl)
    have hlength := length_lstrip_le l
    rw [hstrip, List.length_cons] at hlength
    calc (lstrip ((c :: l').dropWhile fun c => !isSpace c)).length
        ≤ ((c :: l').dropWhile fun c => !isSpace c).length := length_lstrip_le _
      _ ≤ l'.length := by rw [hdrop]; exact (List.dropWhile_suffix _).length_le
      _ < l.length := hlength

/-- `str.split`. -/
def words (l : List Char) : List (List Char) :=
  match h : splitOnce l with
  | none => []
  | some (first, rest) =>
      have := length_lt_of_splitOnce h
      first :: words rest
termination_by l.length

theorem words_of_none {l : List Char} (h : splitOnce l = none) : words l = [] := by
  rw [words]
  split
  · rfl
  · rename_i first rest h'
    rw [h] at h'
    cases h'

theorem words_of_some {l first rest : List Char} (h : splitOnce l = some (first, rest)) :
    words l = first :: words rest := by
  rw [words]
  split
  · rename_i h'
    rw [h] at h'
    cases h'
  · rename_i first' rest' h'
    rw [h] at h'
    cases h'
    rfl

@[simp] theorem words_nil : words [] = [] := words_of_none rfl

/-- A word is its own first word. -/
theorem splitOnce_first {l first rest : List Char} (h : splitOnce l = some (first, rest)) :
    splitOnce first = some (first, []) := by
  simp only [splitOnce] at h
  split at h
  · cases h
  · rename_i c l' hstrip
    cases h
    have hc : isSpace c = false := head?_lstrip l c (by rw [hstrip]; rfl)
    have hfirst : (c :: l').takeWhile (fun c => !isSpace c) = c :: l'.takeWhile fun c => !isSpace c :=
      List.takeWhile_cons_of_pos (by rw [hc]; rfl)
    have hall : ∀ d ∈ (c :: l').takeWhile fun c => !isSpace c, (!isSpace d) = true := fun d hd =>
      List.mem_takeWhile_imp (p := fun c => !isSpace c) hd
    have hkeep : lstrip ((c :: l').takeWhile fun c => !isSpace c) = (c :: l').takeWhile fun c => !isSpace c :=
      lstrip_eq_self fun d hd => by simpa using hall d (List.mem_of_mem_head? hd)
    rw [splitOnce, hkeep]
    rw [hfirst] at hall ⊢
    simp only [List.takeWhile_eq_self_iff.mpr hall, List.dropWhile_eq_nil_iff.mpr hall]
    rfl

@[simp] theorem lstrip_lstrip (l : List Char) : lstrip (lstrip l) = lstrip l := lstrip_eq_self (head?_lstrip l)

@[simp] theorem words_lstrip (l : List Char) : words (lstrip l) = words l := by
  have hsame : splitOnce (lstrip l) = splitOnce l := by rw [splitOnce, lstrip_lstrip, splitOnce]
  cases h : splitOnce l with
  | none => rw [words_of_none h, words_of_none (hsame.trans h)]
  | some r => rw [words_of_some h, words_of_some (hsame.trans h)]

/-- A word ends at the first whitespace. -/
theorem words_append {word rest : List Char} {c : Char} (hne : word ≠ []) (hword : ∀ d ∈ word, isSpace d = false)
    (hc : isSpace c = true) : words (word ++ c :: rest) = word :: words rest := by
  have htake : (word ++ c :: rest).takeWhile (fun c => !isSpace c) = word := by
    rw [List.takeWhile_append_of_pos fun d hd => by rw [hword d hd]; rfl,
      List.takeWhile_cons_of_neg (by rw [hc]; exact Bool.false_ne_true), List.append_nil]
  have hdrop : (word ++ c :: rest).dropWhile (fun c => !isSpace c) = c :: rest := by
    rw [List.dropWhile_append_of_pos fun d hd => by rw [hword d hd]; rfl,
      List.dropWhile_cons_of_neg (by rw [hc]; exact Bool.false_ne_true)]
  have hkeep : lstrip (word ++ c :: rest) = word ++ c :: rest := by
    refine lstrip_eq_self fun d hd => ?_
    obtain ⟨first, tail, rfl⟩ := List.exists_cons_of_ne_nil hne
    exact hword d (List.mem_of_mem_head? hd)
  have hskip : lstrip (c :: rest) = lstrip rest := List.dropWhile_cons_of_pos hc
  have hfirst : splitOnce (word ++ c :: rest) = some (word, lstrip rest) := by
    rw [splitOnce, hkeep]
    split
    · rename_i hnil
      exact absurd (List.append_eq_nil_iff.mp hnil).1 hne
    · rename_i d l hcons
      rw [← hcons, htake, hdrop, hskip]
  rw [words_of_some hfirst, words_lstrip]

theorem words_eq_singleton {word : List Char} (hne : word ≠ []) (hword : ∀ d ∈ word, isSpace d = false) :
    words word = [word] := by
  have hkeep : lstrip word = word := lstrip_eq_self fun d hd => hword d (List.mem_of_mem_head? hd)
  have hall : ∀ d ∈ word, (!isSpace d) = true := fun d hd => by rw [hword d hd]; rfl
  have hfirst : splitOnce word = some (word, []) := by
    rw [splitOnce, hkeep]
    split
    · rename_i hnil
      exact absurd rfl hne
    · rw [List.takeWhile_eq_self_iff.mpr hall, List.dropWhile_eq_nil_iff.mpr hall]
      rfl
  rw [words_of_some hfirst, words_nil]

/-- The words of a text that joins them with spaces. -/
theorem words_intercalate {ws : List (List Char)} (h : ∀ word ∈ ws, word ≠ [] ∧ ∀ d ∈ word, isSpace d = false) :
    words ([' '].intercalate ws) = ws := by
  induction ws with
  | nil => exact words_nil
  | cons word ws ih =>
      rw [List.forall_mem_cons] at h
      cases ws with
      | nil =>
          rw [List.intercalate_singleton]
          exact words_eq_singleton h.1.1 h.1.2
      | cons word' ws =>
          rw [List.intercalate_cons_cons, List.append_assoc, List.singleton_append, words_append h.1.1 h.1.2 rfl,
            ih h.2]

theorem strip_of_ends {l : List Char} (hfirst : ∀ c ∈ l.head?, isSpace c = false)
    (hlast : ∀ c ∈ l.getLast?, isSpace c = false) : strip l = l := by
  have hreverse : lstrip l.reverse = l.reverse :=
    lstrip_eq_self fun c hc => hlast c (by rwa [List.head?_reverse] at hc)
  rw [strip, lstrip_eq_self hfirst, hreverse, List.reverse_reverse]

theorem strip_append_left {spaces : List Char} (h : ∀ c ∈ spaces, isSpace c = true) (l : List Char) :
    strip (spaces ++ l) = strip l := by
  have hdrop : lstrip (spaces ++ l) = lstrip l := List.dropWhile_append_of_pos h
  rw [strip, hdrop, strip]

/-! ## Separators -/

theorem mem_intercalate {α : Type u} {a b : α} {ls : List (List α)} (h : b ∈ [a].intercalate ls) :
    b = a ∨ ∃ l ∈ ls, b ∈ l := by
  induction ls with
  | nil => cases h
  | cons l ls ih =>
      cases ls with
      | nil =>
          rw [List.intercalate_singleton] at h
          exact Or.inr ⟨l, List.mem_cons_self, h⟩
      | cons l' ls =>
          rw [List.intercalate_cons_cons, List.append_assoc, List.singleton_append, List.mem_append,
            List.mem_cons] at h
          rcases h with h | rfl | h
          · exact Or.inr ⟨l, List.mem_cons_self, h⟩
          · exact Or.inl rfl
          · refine (ih h).imp_right ?_
            rintro ⟨l'', hmem, hl''⟩
            exact ⟨l'', List.mem_cons_of_mem _ hmem, hl''⟩

theorem intercalate_concat {α : Type u} (a : α) {ls : List (List α)} (hne : ls ≠ []) (l : List α) :
    [a].intercalate (ls ++ [l]) = [a].intercalate ls ++ a :: l := by
  induction ls with
  | nil => exact absurd rfl hne
  | cons l' ls ih =>
      cases ls with
      | nil => simp
      | cons l'' ls =>
          rw [List.cons_append, List.cons_append, List.intercalate_cons_cons, ← List.cons_append,
            ih (List.cons_ne_nil _ _), List.intercalate_cons_cons]
          simp only [List.append_assoc]

/-- A text with no separator that starts joined texts starts the first one. -/
theorem prefix_of_append_cons {α : Type u} {part after l rest : List α} {a : α} (ha : a ∉ part)
    (h : l ++ a :: rest = part ++ after) : ∃ after', l = part ++ after' ∧ after = after' ++ a :: rest := by
  rw [List.append_eq_append_iff] at h
  rcases h with ⟨mid, rfl, hmid⟩ | ⟨mid, rfl, rfl⟩
  · cases mid with
    | nil => exact ⟨[], by rw [List.append_nil, List.append_nil], hmid.symm⟩
    | cons b mid =>
        obtain rfl : a = b := (List.cons.inj hmid).1
        exact absurd (List.mem_append_right l List.mem_cons_self) ha
  · exact ⟨mid, rfl, rfl⟩

/-- A text with no separator that is found in joined texts is found in one of them. -/
theorem infix_of_append_cons {α : Type u} {part l rest : List α} {a : α} (ha : a ∉ part)
    (h : part <:+: l ++ a :: rest) : part <:+: l ∨ part <:+: rest := by
  obtain ⟨before, after, heq⟩ := h
  rw [List.append_assoc, List.append_eq_append_iff] at heq
  rcases heq with ⟨mid, rfl, hmid⟩ | ⟨mid, rfl, hmid⟩
  · rw [List.append_eq_append_iff] at hmid
    rcases hmid with ⟨mid', rfl, hmid'⟩ | ⟨mid', rfl, hmid'⟩
    · exact Or.inl ⟨before, mid', by rw [List.append_assoc]⟩
    · cases mid' with
      | nil => exact Or.inl ⟨before, [], by simp⟩
      | cons b mid' =>
          obtain rfl : a = b := (List.cons.inj hmid').1
          exact absurd (List.mem_append_right mid List.mem_cons_self) ha
  · cases mid with
    | nil =>
        cases part with
        | nil => exact Or.inl (List.nil_infix)
        | cons b part =>
            obtain rfl : a = b := (List.cons.inj hmid).1
            exact absurd List.mem_cons_self ha
    | cons b mid => exact Or.inr ⟨mid, after, by rw [List.append_assoc]; exact (List.cons.inj hmid).2.symm⟩

theorem infix_of_intercalate {α : Type u} {part : List α} {a : α} (ha : a ∉ part) (hne : part ≠ [])
    {ls : List (List α)} (h : part <:+: [a].intercalate ls) : ∃ l ∈ ls, part <:+: l := by
  induction ls with
  | nil =>
      rw [List.intercalate_nil, List.infix_nil] at h
      exact absurd h hne
  | cons l ls ih =>
      cases ls with
      | nil =>
          rw [List.intercalate_singleton] at h
          exact ⟨l, List.mem_cons_self, h⟩
      | cons l' ls =>
          rw [List.intercalate_cons_cons, List.append_assoc, List.singleton_append] at h
          rcases infix_of_append_cons ha h with h | h
          · exact ⟨l, List.mem_cons_self, h⟩
          · obtain ⟨l'', hmem, hl''⟩ := ih h
            exact ⟨l'', List.mem_cons_of_mem _ hmem, hl''⟩

theorem not_mem_of_mem_splitOn {α : Type u} [BEq α] [LawfulBEq α] {a : α} {l part : List α} (h : part ∈ l.splitOn a) :
    a ∉ part := by
  induction l generalizing part with
  | nil =>
      rw [List.splitOn_nil, List.mem_singleton] at h
      rw [h]
      exact List.not_mem_nil
  | cons b l ih =>
      rw [List.splitOn_cons_eq_if_modifyHead] at h
      by_cases hb : (b == a) = true
      · rw [if_pos hb, List.mem_cons] at h
        rcases h with rfl | h
        · exact List.not_mem_nil
        · exact ih h
      · rw [if_neg hb] at h
        obtain ⟨first, rest, hsplit⟩ := List.exists_cons_of_ne_nil (List.splitOn_ne_nil a l)
        rw [hsplit, List.modifyHead_cons, List.mem_cons] at h
        rw [hsplit] at ih
        rcases h with rfl | h
        · rw [List.mem_cons]
          rintro (rfl | hmem)
          · exact hb (BEq.refl _)
          · exact ih List.mem_cons_self hmem
        · exact ih (List.mem_cons_of_mem _ h)

/-- A text has two parts when the separator is there once. -/
theorem splitOn_eq_pair_iff {α : Type u} [BEq α] [LawfulBEq α] {a : α} {l first last : List α} :
    l.splitOn a = [first, last] ↔ l = first ++ a :: last ∧ a ∉ first ∧ a ∉ last := by
  constructor
  · intro h
    have hjoin : [a].intercalate (l.splitOn a) = l := List.intercalate_splitOn a
    rw [h] at hjoin
    refine ⟨by simpa using hjoin.symm, ?_, ?_⟩
    · exact not_mem_of_mem_splitOn (h ▸ List.mem_cons_self)
    · exact not_mem_of_mem_splitOn (h ▸ List.mem_cons_of_mem _ List.mem_cons_self)
  · rintro ⟨rfl, hfirst, hlast⟩
    rw [List.splitOn_append_cons_self_of_not_mem hfirst, List.splitOn_eq_singleton hlast]

/-! ## Joined words -/

theorem head?_intercalate {α : Type u} (a : α) {l : List α} (hl : l ≠ []) (ls : List (List α)) :
    ([a].intercalate (l :: ls)).head? = l.head? := by
  obtain ⟨b, l, rfl⟩ := List.exists_cons_of_ne_nil hl
  cases ls with
  | nil => rw [List.intercalate_singleton]
  | cons l' ls => rfl

theorem getLast?_intercalate {α : Type u} (a : α) {l : List α} (hl : l ≠ []) (ls : List (List α)) :
    ([a].intercalate (ls ++ [l])).getLast? = l.getLast? := by
  obtain ⟨b, hb⟩ := Option.ne_none_iff_exists'.mp (mt List.getLast?_eq_none_iff.mp hl)
  by_cases hls : ls = []
  · rw [hls, List.nil_append, List.intercalate_singleton]
  · rw [intercalate_concat a hls, List.getLast?_append, List.getLast?_cons, hb, Option.some_or, Option.getD_some]

/-- Joined words start with a word, and end with one. -/
theorem intercalate_ends {ws : List (List Char)} (h : ∀ word ∈ ws, word ≠ [] ∧ ∀ d ∈ word, isSpace d = false) :
    (∀ c ∈ ([' '].intercalate ws).head?, isSpace c = false) ∧
      ∀ c ∈ ([' '].intercalate ws).getLast?, isSpace c = false := by
  constructor
  · intro c hc
    cases ws with
    | nil => cases hc
    | cons word ws =>
        have hword := h word List.mem_cons_self
        rw [head?_intercalate _ hword.1] at hc
        exact hword.2 c (List.mem_of_mem_head? hc)
  · intro c hc
    rcases List.eq_nil_or_concat ws with rfl | ⟨ws, word, rfl⟩
    · cases hc
    · rw [List.concat_eq_append] at h hc
      have hword := h word (List.mem_append_right ws List.mem_cons_self)
      rw [getLast?_intercalate _ hword.1] at hc
      exact hword.2 c (List.mem_of_getLast? hc)

end Itou.Lib
