import Itou.Insertion.Rules

/-!
# The parts of a rule

The characters of the text of a rule, its words, and what the parser reads in a selector of days or of months.
-/

namespace Itou.Insertion.OpeningHours

open Itou.Lib

variable {cls : CharClasses}

/-! ## Names and numbers -/

theorem lookup_dayName (day : Fin 7) : days.lookup (dayName day) = some day := by
  revert day
  decide

theorem lookup_monthName (month : Fin 12) : monthsFr.lookup (monthName month) = some (monthFr month) := by
  revert month
  decide

theorem getItem_dayName (day : Fin 7) : getItem days (dayName day) = .ok day := by
  rw [getItem, lookup_dayName]

theorem getItem_monthName (month : Fin 12) : getItem monthsFr (monthName month) = .ok (monthFr month) := by
  rw [getItem, lookup_monthName]

def dayLetters : List Char := ['M', 'o', 'T', 'u', 'W', 'e', 'h', 'F', 'r', 'S', 'a']

def monthLetters : List Char :=
  ['J', 'a', 'n', 'F', 'e', 'b', 'M', 'r', 'A', 'p', 'y', 'u', 'l', 'g', 'S', 'O', 'c', 't', 'N', 'o', 'v', 'D']

def digitLetters : List Char := ['0', '1', '2', '3', '4', '5', '6', '7', '8', '9']

theorem mem_dayName {day : Fin 7} {c : Char} (h : c ∈ dayName day) : c ∈ dayLetters := by
  have hall : ∀ day, (dayName day).all (fun c => decide (c ∈ dayLetters)) = true := by decide
  exact forall_mem_of_all (hall day) c h

theorem mem_monthName {month : Fin 12} {c : Char} (h : c ∈ monthName month) : c ∈ monthLetters := by
  have hall : ∀ month, (monthName month).all (fun c => decide (c ∈ monthLetters)) = true := by
    decide
  exact forall_mem_of_all (hall month) c h

theorem digitChar_mem {n : Nat} (hn : n < 10) : Nat.digitChar n ∈ digitLetters := by
  have hall : ∀ n : Fin 10, Nat.digitChar n ∈ digitLetters := by decide
  exact hall ⟨n, hn⟩

theorem mem_digits2 {n : Fin 100} {c : Char} (h : c ∈ digits2 n) : c ∈ digitLetters := by
  rcases List.mem_pair.mp h with rfl | rfl <;> exact digitChar_mem (by omega)

theorem mem_dayNumber {n : Fin 100} {c : Char} (h : c ∈ dayNumber n) : c ∈ digitLetters := by
  rw [dayNumber] at h
  split at h
  · obtain rfl := List.mem_singleton.mp h
    exact digitChar_mem (by omega)
  · rcases List.mem_pair.mp h with rfl | rfl <;> exact digitChar_mem (by omega)

theorem digit_isSome {c : Char} (h : c ∈ digitLetters) : (cls.digit c).isSome := by
  have hascii := forall_mem_of_all (p := fun c => c.val < 128 ∧ c.isDigit = true) (by decide) c h
  rw [cls.digit_ascii c hascii.1, if_pos hascii.2]
  rfl

theorem not_mem_of_subset {l letters : List Char} {c : Char} (hl : ∀ c ∈ l, c ∈ letters) (hc : c ∉ letters) : c ∉ l :=
  fun h => hc (hl c h)

theorem DayRange.mem_text {r : DayRange} {c : Char} (h : c ∈ r.text) : c ∈ '-' :: dayLetters := by
  cases r with
  | day d => exact List.mem_cons_of_mem _ (mem_dayName h)
  | range first last =>
      simp only [DayRange.text, List.mem_append, List.mem_cons] at h
      rcases h with h | rfl | h
      · exact List.mem_cons_of_mem _ (mem_dayName h)
      · exact List.mem_cons_self
      · exact List.mem_cons_of_mem _ (mem_dayName h)

theorem TimeRange.mem_text {t : TimeRange} {c : Char} (h : c ∈ t.text) : c ∈ ':' :: '-' :: digitLetters := by
  simp only [TimeRange.text, List.mem_append, List.mem_cons] at h
  rcases h with ((h | rfl | h) | rfl | h) | rfl | h <;> first
    | exact List.mem_cons_of_mem _ (List.mem_cons_of_mem _ (mem_digits2 h))
    | decide

/-- The characters of a selector. -/
def Selector.letters : Selector → List Char
  | days .. => ',' :: '-' :: dayLetters
  | holidays => ['P', 'H']
  | months _ => ',' :: '-' :: (digitLetters ++ monthLetters)

theorem MonthSelector.mem_words {selector : MonthSelector} {word : List Char} (hword : word ∈ selector.words) {c : Char}
    (h : c ∈ word) : c ∈ (Selector.months selector).letters := by
  have hmonth {month : Fin 12} (h : c ∈ monthName month) : c ∈ (Selector.months selector).letters :=
    List.mem_cons_of_mem _ (List.mem_cons_of_mem _ (List.mem_append_right _ (mem_monthName h)))
  have hnumber {n : Fin 100} (h : c ∈ dayNumber n) : c ∈ (Selector.months selector).letters :=
    List.mem_cons_of_mem _ (List.mem_cons_of_mem _ (List.mem_append_left _ (mem_dayNumber h)))
  have hdash {l₁ l₂ : List Char} (h₁ : c ∈ l₁ → c ∈ (Selector.months selector).letters)
      (h₂ : c ∈ l₂ → c ∈ (Selector.months selector).letters) (h : c ∈ l₁ ++ '-' :: l₂) :
      c ∈ (Selector.months selector).letters := by
    rcases List.mem_append.mp h with h | h
    · exact h₁ h
    · rcases List.mem_cons.mp h with rfl | h
      · exact List.mem_cons_of_mem _ List.mem_cons_self
      · exact h₂ h
  cases selector with
  | month m =>
      obtain rfl := List.mem_singleton.mp hword
      exact hmonth h
  | months first second rest =>
      obtain rfl := List.mem_singleton.mp hword
      rcases mem_intercalate h with rfl | ⟨l, hl, hc⟩
      · exact List.mem_cons_self
      · obtain ⟨m, _, rfl⟩ := List.mem_map.mp hl
        exact hmonth hc
  | range first last =>
      obtain rfl := List.mem_singleton.mp hword
      exact hdash hmonth hmonth h
  | date m d =>
      rcases List.mem_pair.mp hword with rfl | rfl
      · exact hmonth h
      · exact hnumber h
  | dateRange m first last =>
      rcases List.mem_pair.mp hword with rfl | rfl
      · exact hmonth h
      · exact hdash hnumber hnumber h
  | dates m d m' d' =>
      rcases List.mem_cons.mp hword with rfl | hword
      · exact hmonth h
      · rcases List.mem_pair.mp hword with rfl | rfl
        · exact hdash hnumber hmonth h
        · exact hnumber h

theorem Selector.mem_words {selector : Selector} {word : List Char} (hword : word ∈ selector.words) {c : Char}
    (h : c ∈ word) : c ∈ selector.letters := by
  cases selector with
  | days first rest =>
      obtain rfl := List.mem_singleton.mp hword
      rcases mem_intercalate h with rfl | ⟨l, hl, hc⟩
      · exact List.mem_cons_self
      · obtain ⟨r, _, rfl⟩ := List.mem_map.mp hl
        exact List.mem_cons_of_mem _ (DayRange.mem_text hc)
  | holidays =>
      obtain rfl := List.mem_singleton.mp hword
      exact h
  | months selector => exact selector.mem_words hword h

theorem mem_times {first : TimeRange} {rest : List TimeRange} {c : Char}
    (h : c ∈ [','].intercalate ((first :: rest).map TimeRange.text)) : c ∈ ',' :: ':' :: '-' :: digitLetters := by
  rcases mem_intercalate h with rfl | ⟨l, hl, hc⟩
  · exact List.mem_cons_self
  · obtain ⟨t, _, rfl⟩ := List.mem_map.mp hl
    exact List.mem_cons_of_mem _ (TimeRange.mem_text hc)

/-- The characters of the hours of a rule. -/
def Hours.letters : Hours → List Char
  | times .. => ',' :: ':' :: '-' :: (digitLetters ++ ['o', 'p', 'e', 'n'])
  | openAllDay => ['o', 'p', 'e', 'n']
  | off _ => ['o', 'f', 'c', 'l', 's', 'e', 'd']

theorem Hours.mem_words {hours : Hours} {word : List Char} (hword : word ∈ hours.words) {c : Char} (h : c ∈ word) :
    c ∈ hours.letters := by
  cases hours with
  | times first rest withOpen =>
      rcases List.mem_cons.mp hword with rfl | hword
      · exact List.mem_append_left ['o', 'p', 'e', 'n'] (mem_times h)
      · cases withOpen with
        | false => cases hword
        | true =>
            obtain rfl := List.mem_singleton.mp hword
            exact List.mem_append_right (',' :: ':' :: '-' :: digitLetters) h
  | openAllDay =>
      obtain rfl := List.mem_singleton.mp hword
      exact h
  | off closed =>
      obtain rfl := List.mem_singleton.mp hword
      cases closed with
      | false => exact forall_mem_of_all (l := "off".toList) (p := (· ∈ Hours.letters (off false))) (by decide) c h
      | true => exact forall_mem_of_all (l := "closed".toList) (p := (· ∈ Hours.letters (off true))) (by decide) c h

def ruleMarks : List Char := [',', '-', ':', 'P', 'H', 'o', 'p', 'e', 'n', 'f', 'c', 'l', 's', 'd']

/-- What is true of the letters is true of the characters of every rule. -/
theorem Rule.forall_mem {p : Char → Prop} [DecidablePred p]
    (h : (ruleMarks ++ (dayLetters ++ (digitLetters ++ monthLetters))).all (fun c => decide (p c)) = true)
    {r : Rule} {word : List Char} (hword : word ∈ r.words) : ∀ c ∈ word, p c := by
  intro c hc
  have hall := forall_mem_of_all h
  have hmark : ∀ c ∈ ruleMarks, p c := fun c hc => hall c (List.mem_append_left _ hc)
  have hday : ∀ c ∈ dayLetters, p c := fun c hc => hall c (List.mem_append_right _ (List.mem_append_left _ hc))
  have hdigit : ∀ c ∈ digitLetters, p c := fun c hc =>
    hall c (List.mem_append_right _ (List.mem_append_right _ (List.mem_append_left _ hc)))
  have hmonth : ∀ c ∈ monthLetters, p c := fun c hc =>
    hall c (List.mem_append_right _ (List.mem_append_right _ (List.mem_append_right _ hc)))
  rcases List.mem_append.mp hword with hword | hword
  · have hletters := Selector.mem_words hword hc
    cases hs : r.selector with
    | days first rest =>
        rw [hs, Selector.letters, List.mem_cons, List.mem_cons] at hletters
        rcases hletters with rfl | rfl | hletters
        · exact hmark _ (by decide)
        · exact hmark _ (by decide)
        · exact hday c hletters
    | holidays =>
        rw [hs, Selector.letters, List.mem_pair] at hletters
        rcases hletters with rfl | rfl <;> exact hmark _ (by decide)
    | months selector =>
        rw [hs, Selector.letters, List.mem_cons, List.mem_cons, List.mem_append] at hletters
        rcases hletters with rfl | rfl | hletters | hletters
        · exact hmark _ (by decide)
        · exact hmark _ (by decide)
        · exact hdigit c hletters
        · exact hmonth c hletters
  · have hletters := Hours.mem_words hword hc
    have hhours (letters : List Char) (hsubset : letters.all (fun c => decide (c ∈ ruleMarks)) = true)
        (hc : c ∈ letters) : p c := hmark c (forall_mem_of_all hsubset c hc)
    cases hr : r.hours with
    | times first rest withOpen =>
        rw [hr, Hours.letters, List.mem_cons, List.mem_cons, List.mem_cons, List.mem_append] at hletters
        rcases hletters with rfl | rfl | rfl | hletters | hletters
        · exact hmark _ (by decide)
        · exact hmark _ (by decide)
        · exact hmark _ (by decide)
        · exact hdigit c hletters
        · exact hhours _ (by decide) hletters
    | openAllDay =>
        rw [hr, Hours.letters] at hletters
        exact hhours _ (by decide) hletters
    | off closed =>
        rw [hr, Hours.letters] at hletters
        exact hhours _ (by decide) hletters

/-! ## Selectors of days -/

theorem expandPart_text (r : DayRange) : expandPart r.text = .ok r.days := by
  cases r with
  | day d =>
      have hdash : '-' ∉ dayName d := not_mem_of_subset (fun _ => mem_dayName) (by decide)
      rw [DayRange.text, expandPart, if_neg hdash, getItem_dayName]
      rfl
  | range first last =>
      have hdash (d : Fin 7) : '-' ∉ dayName d := not_mem_of_subset (fun _ => mem_dayName) (by decide)
      rw [DayRange.text, expandPart, if_pos (List.mem_append_right _ List.mem_cons_self),
        splitOn_eq_pair_iff.mpr ⟨rfl, hdash first, hdash last⟩]
      simp only [getItem_dayName]
      rfl

theorem splitOn_days (first : DayRange) (rest : List DayRange) :
    ([','].intercalate ((first :: rest).map DayRange.text)).splitOn ',' = (first :: rest).map DayRange.text := by
  refine List.splitOn_intercalate _ (fun l hl => ?_) (List.cons_ne_nil _ _)
  obtain ⟨r, _, rfl⟩ := List.mem_map.mp hl
  exact not_mem_of_subset (fun _ => DayRange.mem_text) (by decide)

theorem expandDaySelector_days (first : DayRange) (rest : List DayRange) :
    expandDaySelector ([','].intercalate ((first :: rest).map DayRange.text)) =
      .ok ((first :: rest).flatMap DayRange.days) := by
  have hmap (rs : List DayRange) : (rs.map DayRange.text).mapM expandPart = .ok (rs.map DayRange.days) := by
    induction rs with
    | nil => rfl
    | cons r rs ih =>
        rw [List.map_cons, List.mapM_cons, expandPart_text, ih]
        rfl
  rw [expandDaySelector, splitOn_days, hmap]
  rfl

theorem firstDay_days (first : DayRange) (rest : List DayRange) :
    (days.lookup (firstDay ([','].intercalate ((first :: rest).map DayRange.text)))).isSome := by
  have hdash (d : Fin 7) : '-' ∉ dayName d := not_mem_of_subset (fun _ => mem_dayName) (by decide)
  rw [firstDay, splitOn_days, List.map_cons, List.headD_cons]
  cases first with
  | day d =>
      rw [DayRange.text, List.splitOn_eq_singleton (hdash d), List.headD_cons, lookup_dayName]
      rfl
  | range first last =>
      rw [DayRange.text, List.splitOn_append_cons_self_of_not_mem (hdash first), List.headD_cons, lookup_dayName]
      rfl

/-! ## Ranges of times -/

theorem digitChar_lt {n m : Nat} (hn : n < 10) (hm : m < 10) : Nat.digitChar n < Nat.digitChar m ↔ n < m := by
  have hall : ∀ n m : Fin 10, Nat.digitChar n < Nat.digitChar m ↔ n < m := by decide
  exact hall ⟨n, hn⟩ ⟨m, hm⟩

theorem digitChar_inj {n m : Nat} (hn : n < 10) (hm : m < 10) : Nat.digitChar n = Nat.digitChar m ↔ n = m := by
  have hall : ∀ n m : Fin 10, Nat.digitChar n = Nat.digitChar m ↔ n = m := by decide
  simpa using hall ⟨n, hn⟩ ⟨m, hm⟩

theorem cons_le_cons {a b : Char} {l l' : List Char} : a :: l ≤ b :: l' ↔ a < b ∨ a = b ∧ l ≤ l' := by
  rw [← not_lt, ← not_lt, List.cons_lt_cons_iff]
  constructor
  · intro h
    rw [not_or, not_and] at h
    rcases lt_or_eq_of_le (not_lt.mp h.1) with hlt | heq
    · exact Or.inl hlt
    · exact Or.inr ⟨heq, h.2 heq.symm⟩
  · rintro (h | ⟨rfl, h⟩)
    · rw [not_or, not_and]
      exact ⟨not_lt.mpr h.le, fun heq => absurd heq.symm h.ne⟩
    · rw [not_or]
      exact ⟨lt_irrefl a, fun hand => h hand.2⟩

theorem digits2_append_le {n m : Fin 100} {l l' : List Char} :
    digits2 n ++ l ≤ digits2 m ++ l' ↔ n.val < m.val ∨ n.val = m.val ∧ l ≤ l' := by
  have hn := n.isLt
  have hm := m.isLt
  simp only [digits2, List.cons_append, List.nil_append, cons_le_cons,
    digitChar_lt (show (n : Nat) / 10 < 10 by omega) (show (m : Nat) / 10 < 10 by omega),
    digitChar_inj (show (n : Nat) / 10 < 10 by omega) (show (m : Nat) / 10 < 10 by omega),
    digitChar_lt (show (n : Nat) % 10 < 10 by omega) (show (m : Nat) % 10 < 10 by omega),
    digitChar_inj (show (n : Nat) % 10 < 10 by omega) (show (m : Nat) % 10 < 10 by omega)]
  by_cases hl : l ≤ l' <;> simp only [hl, and_true, and_false, or_false] <;> omega

/-- The order of the texts is that of time. -/
theorem TimeRange.text_le_iff {a b : TimeRange} : a.text ≤ b.text ↔ a.key ≤ b.key := by
  have hsep {c : Char} {l l' : List Char} : c :: l ≤ c :: l' ↔ l ≤ l' := by
    rw [cons_le_cons]
    exact ⟨fun h => h.elim (fun h => absurd h (lt_irrefl c)) And.right, fun h => Or.inr ⟨rfl, h⟩⟩
  have hlast : digits2 a.stop.2 ≤ digits2 b.stop.2 ↔ a.stop.2.val ≤ b.stop.2.val := by
    rw [← List.append_nil (digits2 a.stop.2), ← List.append_nil (digits2 b.stop.2), digits2_append_le]
    simp only [le_refl, and_true]
    exact Nat.le_iff_lt_or_eq.symm
  have h₁ := a.start.1.isLt
  have h₂ := b.start.1.isLt
  have h₃ := a.start.2.isLt
  have h₄ := b.start.2.isLt
  have h₅ := a.stop.1.isLt
  have h₆ := b.stop.1.isLt
  have h₇ := a.stop.2.isLt
  have h₈ := b.stop.2.isLt
  simp only [TimeRange.text, List.append_assoc, List.cons_append, digits2_append_le, hsep, hlast, TimeRange.key]
  omega

theorem int_digits2 (n : Fin 100) : int cls (digits2 n) = .ok n := by
  have hdigit (m : Nat) (hm : m < 10) : cls.digit (Nat.digitChar m) = some m := by
    have hascii : ∀ m : Fin 10, (Nat.digitChar m).val < 128 ∧ (Nat.digitChar m).isDigit = true ∧
        (Nat.digitChar m).toNat - '0'.toNat = m := by decide
    obtain ⟨hval, hisDigit, heq⟩ := hascii ⟨m, hm⟩
    rw [cls.digit_ascii _ hval, if_pos hisDigit, heq]
  have hn := n.isLt
  simp only [int, digits2, List.mapM_cons, List.mapM_nil, hdigit _ (show (n : Nat) / 10 < 10 by omega),
    hdigit _ (show (n : Nat) % 10 < 10 by omega), Option.bind_eq_bind, Option.bind_some, Option.pure_def,
    List.foldl_cons, List.foldl_nil]
  exact congrArg Except.ok (by omega)

theorem formatTimeRange_text (t : TimeRange) : formatTimeRange cls t.text = .ok t.shown := by
  have hcolon (n : Fin 100) : ':' ∉ digits2 n := not_mem_of_subset (fun _ => mem_digits2) (by decide)
  have hdash (time : Fin 100 × Fin 100) : '-' ∉ digits2 time.1 ++ ':' :: digits2 time.2 := by
    have hdigits (n : Fin 100) : '-' ∉ digits2 n := not_mem_of_subset (fun _ => mem_digits2) (by decide)
    rw [List.mem_append, List.mem_cons]
    rintro (h | h | h)
    · exact hdigits _ h
    · cases h
    · exact hdigits _ h
  have htime (time : Fin 100 × Fin 100) : formatTime cls (digits2 time.1 ++ ':' :: digits2 time.2) =
      .ok (Nat.toDigits 10 time.1 ++ 'h' :: digits2 time.2) := by
    rw [formatTime, splitOn_eq_pair_iff.mpr ⟨rfl, hcolon time.1, hcolon time.2⟩]
    simp only [int_digits2]
    rfl
  have hsplit : t.text.splitOn '-' =
      [digits2 t.start.1 ++ ':' :: digits2 t.start.2, digits2 t.stop.1 ++ ':' :: digits2 t.stop.2] := by
    refine splitOn_eq_pair_iff.mpr ⟨?_, hdash t.start, hdash t.stop⟩
    simp only [TimeRange.text, List.append_assoc, List.cons_append]
  rw [formatTimeRange, hsplit]
  simp only [htime]
  refine congrArg Except.ok ?_
  simp only [TimeRange.shown, List.append_assoc, List.cons_append]

/-! ## Closed months -/

/-- A month is a capital and two small letters. -/
theorem monthName_eq (month : Fin 12) :
    ∃ a b c, monthName month = [a, b, c] ∧ a.isUpper = true ∧ b.isLower = true ∧ c.isLower = true := by
  have hshape : ∀ month, (monthName month).length = 3 ∧ (monthName month).head?.all Char.isUpper = true ∧
      (monthName month).tail.all Char.isLower = true := by decide
  obtain ⟨hlength, hhead, htail⟩ := hshape month
  obtain ⟨a, b, c, habc⟩ := List.length_eq_three.mp hlength
  rw [habc] at hhead htail
  simp only [List.tail_cons, List.all_cons, List.all_nil, Bool.and_true, Bool.and_eq_true] at htail
  exact ⟨a, b, c, habc, hhead, htail⟩

theorem isDay_dayNumber (n : Fin 100) : isDay cls (dayNumber n) = true := by
  rw [dayNumber]
  have hmem : ∀ c ∈ dayNumber n, (cls.digit c).isSome := fun c hc => digit_isSome (mem_dayNumber hc)
  rw [dayNumber] at hmem
  split
  · rename_i hn
    rw [if_pos hn] at hmem
    exact hmem _ List.mem_cons_self
  · rename_i hn
    rw [if_neg hn] at hmem
    rw [isDay, hmem _ List.mem_cons_self, hmem _ (List.mem_cons_of_mem _ List.mem_cons_self)]
    rfl

theorem monthDay?_date (month : Fin 12) (day : Fin 100) :
    monthDay? cls (monthName month ++ ' ' :: dayNumber day) = some (monthName month, dayNumber day) := by
  obtain ⟨a, b, c, habc, ha, hb, hc⟩ := monthName_eq month
  rw [habc]
  simp only [List.cons_append, List.nil_append, monthDay?]
  exact if_pos ⟨ha, hb, hc, isDay_dayNumber day⟩

theorem monthDay?_monthName (month : Fin 12) : monthDay? cls (monthName month) = none := by
  obtain ⟨a, b, c, habc, -⟩ := monthName_eq month
  rw [habc]
  rfl

/-- A number is no date. -/
theorem monthDay?_dayNumber (day : Fin 100) : monthDay? cls (dayNumber day) = none := by
  rw [dayNumber]
  split <;> rfl

theorem monthDay?_comma (month : Fin 12) (rest : List Char) : monthDay? cls (monthName month ++ ',' :: rest) = none := by
  obtain ⟨a, b, c, habc, -⟩ := monthName_eq month
  rw [habc]
  rfl

theorem dash_notMem_monthName (month : Fin 12) : '-' ∉ monthName month :=
  not_mem_of_subset (fun _ => mem_monthName) (by decide)

theorem dash_notMem_date (month : Fin 12) (day : Fin 100) : '-' ∉ monthName month ++ ' ' :: dayNumber day := by
  rw [List.mem_append, List.mem_cons]
  rintro (h | h | h)
  · exact dash_notMem_monthName month h
  · cases h
  · exact not_mem_of_subset (fun _ => mem_dayNumber) (by decide) h

theorem mapM_getItem (months : List (Fin 12)) :
    (months.map monthName).mapM (getItem monthsFr) = .ok (months.map monthFr) := by
  induction months with
  | nil => rfl
  | cons m ms ih =>
      rw [List.map_cons, List.mapM_cons, getItem_monthName, ih]
      rfl

theorem monthOff_month (m : Fin 12) : monthOff cls (monthName m) = .ok (MonthSelector.month m).sentence := by
  have hcomma : ',' ∉ monthName m := not_mem_of_subset (fun _ => mem_monthName) (by decide)
  simp only [monthOff, List.splitOn_eq_singleton (dash_notMem_monthName m), monthDay?_monthName, getItem_monthName,
    if_neg hcomma]
  rfl

theorem monthOff_months (first second : Fin 12) (rest : List (Fin 12)) :
    monthOff cls ([','].intercalate ((first :: second :: rest).map monthName)) =
      .ok (MonthSelector.months first second rest).sentence := by
  have hcomma : ∀ l ∈ (first :: second :: rest).map monthName, ',' ∉ l := by
    intro l hl
    obtain ⟨m, _, rfl⟩ := List.mem_map.mp hl
    exact not_mem_of_subset (fun _ => mem_monthName) (by decide)
  have hdash : '-' ∉ [','].intercalate ((first :: second :: rest).map monthName) := by
    intro h
    rcases mem_intercalate h with h | ⟨l, hl, hin⟩
    · cases h
    · obtain ⟨m, _, rfl⟩ := List.mem_map.mp hl
      exact dash_notMem_monthName m hin
  have hcons : [','].intercalate ((first :: second :: rest).map monthName) =
      monthName first ++ ',' :: [','].intercalate ((second :: rest).map monthName) := by
    rw [List.map_cons, List.map_cons, List.intercalate_cons_cons, List.append_assoc, List.singleton_append]
  have hnone := @monthDay?_comma cls first ([','].intercalate ((second :: rest).map monthName))
  rw [← hcons] at hnone
  have hmem : ',' ∈ [','].intercalate ((first :: second :: rest).map monthName) := by
    rw [hcons]
    exact List.mem_append_right _ List.mem_cons_self
  simp only [monthOff, List.splitOn_eq_singleton hdash, hnone, if_pos hmem,
    List.splitOn_intercalate _ hcomma (List.cons_ne_nil _ _), mapM_getItem]
  rfl

theorem monthOff_range (first last : Fin 12) :
    monthOff cls (monthName first ++ '-' :: monthName last) = .ok (MonthSelector.range first last).sentence := by
  simp only [monthOff, splitOn_eq_pair_iff.mpr ⟨rfl, dash_notMem_monthName first, dash_notMem_monthName last⟩,
    monthDay?_monthName, monthRange, getItem_monthName]
  rfl

theorem monthOff_date (m : Fin 12) (d : Fin 100) :
    monthOff cls (monthName m ++ ' ' :: dayNumber d) = .ok (MonthSelector.date m d).sentence := by
  simp only [monthOff, List.splitOn_eq_singleton (dash_notMem_date m d), monthDay?_date, getItem_monthName]
  rfl

theorem monthOff_dateRange (m : Fin 12) (first last : Fin 100) :
    monthOff cls (monthName m ++ ' ' :: (dayNumber first ++ '-' :: dayNumber last)) =
      .ok (MonthSelector.dateRange m first last).sentence := by
  have hlast : '-' ∉ dayNumber last := not_mem_of_subset (fun _ => mem_dayNumber) (by decide)
  have hsplit : (monthName m ++ ' ' :: (dayNumber first ++ '-' :: dayNumber last)).splitOn '-' =
      [monthName m ++ ' ' :: dayNumber first, dayNumber last] :=
    splitOn_eq_pair_iff.mpr ⟨by rw [List.append_assoc, List.cons_append], dash_notMem_date m first, hlast⟩
  simp only [monthOff, hsplit, monthDay?_date, monthDay?_dayNumber, isDay_dayNumber, getItem_monthName]
  rfl

theorem monthOff_dates (m : Fin 12) (d : Fin 100) (m' : Fin 12) (d' : Fin 100) :
    monthOff cls (monthName m ++ ' ' :: (dayNumber d ++ '-' :: (monthName m' ++ ' ' :: dayNumber d'))) =
      .ok (MonthSelector.dates m d m' d').sentence := by
  have hsplit : (monthName m ++ ' ' :: (dayNumber d ++ '-' :: (monthName m' ++ ' ' :: dayNumber d'))).splitOn '-' =
      [monthName m ++ ' ' :: dayNumber d, monthName m' ++ ' ' :: dayNumber d'] :=
    splitOn_eq_pair_iff.mpr ⟨by rw [List.append_assoc, List.cons_append], dash_notMem_date m d, dash_notMem_date m' d'⟩
  simp only [monthOff, hsplit, monthDay?_date, getItem_monthName]
  rfl

theorem translateMonthOff_words (selector : MonthSelector) :
    translateMonthOff cls (join [' '] selector.words) = .ok (some selector.sentence) := by
  have hoff : monthOff cls (join [' '] selector.words) = .ok selector.sentence := by
    cases selector with
    | month m =>
        rw [MonthSelector.words, join, List.intercalate_singleton]
        exact monthOff_month m
    | months first second rest =>
        rw [MonthSelector.words, join, List.intercalate_singleton]
        exact monthOff_months first second rest
    | range first last =>
        rw [MonthSelector.words, join, List.intercalate_singleton]
        exact monthOff_range first last
    | date m d =>
        simp only [MonthSelector.words, join, List.intercalate_cons_cons, List.intercalate_singleton,
          List.append_assoc, List.singleton_append]
        exact monthOff_date m d
    | dateRange m first last =>
        simp only [MonthSelector.words, join, List.intercalate_cons_cons, List.intercalate_singleton,
          List.append_assoc, List.singleton_append]
        exact monthOff_dateRange m first last
    | dates m d m' d' =>
        simp only [MonthSelector.words, join, List.intercalate_cons_cons, List.intercalate_singleton,
          List.append_assoc, List.cons_append]
        exact monthOff_dates m d m' d'
  rw [translateMonthOff, hoff]

end Itou.Insertion.OpeningHours
