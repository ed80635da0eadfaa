import Itou.Insertion.Lemmas.Rules

/-!
# The text of the rules, parsed

The two substitutions leave rules that end with a semicolon, and each turn of the loop reads one of them.
-/

namespace Itou.Insertion.OpeningHours

open Itou.Lib

variable {cls : CharClasses}

/-! ## The first substitutions -/

theorem closedWord_eq_some {before : Option Char} {l : List Char} {r : List Char × Nat} :
    closedWord cls before l = some r ↔ r = ("off".toList, 5) ∧ before.all (fun c => !cls.isWord c) ∧
      ∃ rest, l = "closed".toList ++ rest ∧ rest.head?.all fun c => !cls.isWord c := by
  rw [closedWord, Option.ite_none_right_eq_some, Option.some.injEq]
  constructor
  · rintro ⟨⟨⟨rest, rfl⟩, hbefore, hafter⟩, rfl⟩
    exact ⟨rfl, hbefore, rest, rfl, hafter⟩
  · rintro ⟨rfl, hbefore, rest, rfl, hafter⟩
    exact ⟨⟨⟨rest, rfl⟩, hbefore, hafter⟩, rfl⟩

theorem closedWord_separated {s : Char} (hword : cls.isWord s = false) (hs : s ∉ "closed".toList) :
    (closedWord cls).Separated s where
  start before l := by
    rw [Option.eq_none_iff_forall_ne_some]
    rintro r hr
    obtain ⟨-, -, rest, heq, -⟩ := closedWord_eq_some.mp hr
    exact hs ((List.cons.inj heq).1 ▸ List.mem_cons_self)
  before l := by simp only [closedWord, Option.all_some, Option.all_none, hword, Bool.not_false]
  after before l rest _ := by
    ext r
    rw [closedWord_eq_some, closedWord_eq_some]
    refine and_congr_right fun _ => and_congr_right fun _ => ?_
    constructor
    · rintro ⟨t, heq, ht⟩
      obtain ⟨t', rfl, rfl⟩ := prefix_of_append_cons hs heq
      refine ⟨t', rfl, ?_⟩
      cases t' with
      | nil => rfl
      | cons c t' => exact ht
    · rintro ⟨t, rfl, ht⟩
      refine ⟨t ++ s :: rest, List.append_assoc _ _ _, ?_⟩
      cases t with
      | nil => rw [List.nil_append, List.head?_cons, Option.all_some, hword, Bool.not_false]
      | cons c t => exact ht
  short before c l text n h := by
    obtain ⟨hr, -, rest, heq, -⟩ := closedWord_eq_some.mp h
    obtain ⟨-, rfl⟩ := Prod.mk.inj hr
    have hlength := congrArg List.length heq
    simp only [List.length_cons, List.length_append] at hlength
    have hclosed : "closed".toList.length = 6 := rfl
    omega

theorem sub_closedWord_eq_self {l : List Char} (h : ¬ "closed".toList <:+: l) : sub (closedWord cls) l = l := by
  refine sub_eq_self fun before l₁ l₂ heq _ => ?_
  rw [Option.eq_none_iff_forall_ne_some]
  rintro r hr
  obtain ⟨-, -, rest, rfl, -⟩ := closedWord_eq_some.mp hr
  exact h ⟨l₁, rest, by rw [heq, List.append_assoc]⟩

theorem endOfRule_eq_some {before : Option Char} {l text : List Char} {n : Nat} :
    endOfRule before l = some (text, n) ↔ ∃ word ∈ ["open".toList, "off".toList], ∃ spaces rest,
      l = word ++ (spaces ++ ',' :: rest) ∧ (∀ c ∈ spaces, isSpace c = true) ∧ text = word ++ [';'] ∧
        n = word.length + spaces.length := by
  have htake {spaces rest : List Char} (hspaces : ∀ c ∈ spaces, isSpace c = true) :
      (spaces ++ ',' :: rest).takeWhile isSpace = spaces := by
    rw [List.takeWhile_append_of_pos hspaces, List.takeWhile_cons_of_neg (by decide), List.append_nil]
  have hdrop {spaces rest : List Char} (hspaces : ∀ c ∈ spaces, isSpace c = true) :
      (spaces ++ ',' :: rest).dropWhile isSpace = ',' :: rest := by
    rw [List.dropWhile_append_of_pos hspaces, List.dropWhile_cons_of_neg (by decide)]
  constructor
  · intro h
    simp only [endOfRule] at h
    split at h
    · rename_i word hfind
      rw [Option.ite_none_right_eq_some, Option.some.injEq, Prod.mk.injEq] at h
      obtain ⟨hcomma, rfl, rfl⟩ := h
      obtain ⟨t, rfl⟩ : word <+: l := by simpa using List.find?_some hfind
      rw [List.drop_left] at hcomma ⊢
      obtain ⟨rest, hrest⟩ : ∃ rest, t.dropWhile isSpace = ',' :: rest := by
        cases hd : t.dropWhile isSpace with
        | nil => rw [hd] at hcomma; cases hcomma
        | cons c rest =>
            rw [hd, List.head?_cons, Option.some.injEq] at hcomma
            exact ⟨rest, by rw [hcomma]⟩
      refine ⟨word, List.mem_of_find?_eq_some hfind, t.takeWhile isSpace, rest, ?_, ?_, rfl, rfl⟩
      · rw [← hrest, List.takeWhile_append_dropWhile]
      · exact fun c hc => List.mem_takeWhile_imp hc
    · cases h
  · rintro ⟨word, hword, spaces, rest, rfl, hspaces, rfl, rfl⟩
    have hfind : ["open".toList, "off".toList].find? (· <+: word ++ (spaces ++ ',' :: rest)) = some word := by
      simp only [List.mem_cons, List.not_mem_nil, or_false] at hword
      rcases hword with rfl | rfl <;> rfl
    simp only [endOfRule, hfind, List.drop_left, htake hspaces, hdrop hspaces, List.head?_cons]
    rfl

theorem endOfRule_separated {s : Char} (hs : s ∉ "openf".toList) (hspace : isSpace s = false) (hcomma : s ≠ ',') :
    endOfRule.Separated s where
  start before l := by
    rw [Option.eq_none_iff_forall_ne_some]
    rintro ⟨text, n⟩ h
    obtain ⟨word, hword, spaces, rest, heq, -⟩ := endOfRule_eq_some.mp h
    simp only [List.mem_cons, List.not_mem_nil, or_false] at hword
    rcases hword with rfl | rfl <;> exact hs ((List.cons.inj heq).1 ▸ List.mem_cons_self)
  before _ := rfl
  after before l rest _ := by
    ext ⟨text, n⟩
    rw [endOfRule_eq_some, endOfRule_eq_some]
    refine exists_congr fun word => and_congr_right fun hword => exists_congr fun spaces => ?_
    constructor
    · rintro ⟨t, heq, hspaces, h⟩
      have hnot : s ∉ word ++ (spaces ++ [',']) := by
        simp only [List.mem_append, List.mem_cons, List.not_mem_nil, or_false, not_or]
        refine ⟨fun hmem => hs ?_, fun hmem => ?_, hcomma⟩
        · simp only [List.mem_cons, List.not_mem_nil, or_false] at hword
          rcases hword with rfl | rfl
          · exact List.mem_append_left ['f'] hmem
          · exact forall_mem_of_all (p := (· ∈ "openf".toList)) (l := "off".toList) (by decide) s hmem
        · exact absurd (hspaces s hmem) (by rw [hspace]; exact Bool.false_ne_true)
      obtain ⟨t', rfl, rfl⟩ := @prefix_of_append_cons _ _ t _ _ _ hnot (by rw [heq]; simp)
      exact ⟨t', by simp, hspaces, h⟩
    · rintro ⟨t, rfl, hspaces, h⟩
      exact ⟨t ++ s :: rest, by simp, hspaces, h⟩
  short before c l text n h := by
    obtain ⟨word, hword, spaces, rest, heq, -, -, rfl⟩ := endOfRule_eq_some.mp h
    have hlength := congrArg List.length heq
    simp only [List.length_cons, List.length_append] at hlength
    omega

/-! ## A rule after the substitutions -/

/-- No `open` and no `off` starts in the text, whatever follows it. -/
structure Calm (l : List Char) : Prop where
  noOpen : ¬ ['o', 'p'] <:+: l
  noOff : ¬ ['o', 'f'] <:+: l
  last : l.getLast? ≠ some 'o'

theorem Calm.endOfRule_eq_none {l : List Char} (h : Calm l) {before : Option Char} {l₁ l₂ rest : List Char}
    (heq : l = l₁ ++ l₂) (hne : l₂ ≠ []) : endOfRule before (l₂ ++ rest) = none := by
  rw [Option.eq_none_iff_forall_ne_some]
  rintro ⟨text, n⟩ hsome
  obtain ⟨word, hword, spaces, rest', heq', -⟩ := endOfRule_eq_some.mp hsome
  cases l₂ with
  | nil => exact hne rfl
  | cons c l₂ =>
      cases l₂ with
      | nil =>
          have hc : c = 'o' := by
            simp only [List.mem_cons, List.not_mem_nil, or_false] at hword
            rcases hword with rfl | rfl <;> exact (List.cons.inj heq').1
          exact h.last (by rw [heq, hc, List.getLast?_append, List.getLast?_singleton, Option.some_or])
      | cons d l₂ =>
          simp only [List.mem_cons, List.not_mem_nil, or_false] at hword
          rcases hword with rfl | rfl
          · obtain ⟨rfl, hcons⟩ := List.cons.inj heq'
            obtain ⟨rfl, -⟩ := List.cons.inj hcons
            exact h.noOpen ⟨l₁, l₂, by rw [heq, List.append_assoc]; rfl⟩
          · obtain ⟨rfl, hcons⟩ := List.cons.inj heq'
            obtain ⟨rfl, -⟩ := List.cons.inj hcons
            exact h.noOff ⟨l₁, l₂, by rw [heq, List.append_assoc]; rfl⟩

theorem Calm.subFrom {l rest : List Char} (h : Calm l) (before : Option Char) :
    subFrom endOfRule before 0 (l ++ rest) = l ++ sub endOfRule rest := by
  have hbefore (b : Option Char) (l : List Char) : Lib.subFrom endOfRule b 0 l = sub endOfRule l := by
    cases l with
    | nil => rw [sub, subFrom_nil, subFrom_nil]
    | cons c l => rfl
  rw [subFrom_append fun _ _ _ heq hne => h.endOfRule_eq_none heq hne, hbefore]

theorem Selector.words_ne_nil (selector : Selector) : selector.words ≠ [] := by
  cases selector with
  | days first rest => exact List.cons_ne_nil _ _
  | holidays => exact List.cons_ne_nil _ _
  | months selector => cases selector <;> exact List.cons_ne_nil _ _

/-- No word of a selector has `op` or `of`. -/
theorem Selector.noOpen {selector : Selector} {word : List Char} (hword : word ∈ selector.words) {c : Char}
    (hc : c = 'p' ∨ c = 'f') : ¬ ['o', c] <:+: word := by
  have hday (day : Fin 7) : ¬ ['o', c] <:+: dayName day := by
    revert day
    rcases hc with rfl | rfl <;> decide
  have hmonth (month : Fin 12) : ¬ ['o', c] <:+: monthName month := by
    revert month
    rcases hc with rfl | rfl <;> decide
  have hnumber (n : Fin 100) : ¬ ['o', c] <:+: dayNumber n := fun h =>
    not_mem_of_subset (fun _ => mem_dayNumber) (by decide) (h.subset List.mem_cons_self)
  have hcomma : ',' ∉ ['o', c] := by rcases hc with rfl | rfl <;> decide
  have hdash {l₁ l₂ : List Char} (h₁ : ¬ ['o', c] <:+: l₁) (h₂ : ¬ ['o', c] <:+: l₂) :
      ¬ ['o', c] <:+: l₁ ++ '-' :: l₂ := fun h =>
    (infix_of_append_cons (by rcases hc with rfl | rfl <;> decide) h).elim h₁ h₂
  cases selector with
  | days first rest =>
      obtain rfl := List.mem_singleton.mp hword
      intro h
      obtain ⟨l, hl, hin⟩ := infix_of_intercalate hcomma (List.cons_ne_nil _ _) h
      obtain ⟨r, _, rfl⟩ := List.mem_map.mp hl
      cases r with
      | day d => exact hday d hin
      | range first last => exact hdash (hday first) (hday last) hin
  | holidays =>
      obtain rfl := List.mem_singleton.mp hword
      rcases hc with rfl | rfl <;> decide
  | months selector =>
      cases selector with
      | month m =>
          obtain rfl := List.mem_singleton.mp hword
          exact hmonth m
      | months first second rest =>
          obtain rfl := List.mem_singleton.mp hword
          intro h
          obtain ⟨l, hl, hin⟩ := infix_of_intercalate hcomma (List.cons_ne_nil _ _) h
          obtain ⟨m, _, rfl⟩ := List.mem_map.mp hl
          exact hmonth m hin
      | range first last =>
          obtain rfl := List.mem_singleton.mp hword
          exact hdash (hmonth first) (hmonth last)
      | date m d =>
          rcases List.mem_pair.mp hword with rfl | rfl
          · exact hmonth m
          · exact hnumber d
      | dateRange m first last =>
          rcases List.mem_pair.mp hword with rfl | rfl
          · exact hmonth m
          · exact hdash (hnumber first) (hnumber last)
      | dates m d m' d' =>
          rcases List.mem_cons.mp hword with rfl | hword
          · exact hmonth m
          · rcases List.mem_pair.mp hword with rfl | rfl
            · exact hdash (hnumber d) (hmonth m')
            · exact hnumber d'

theorem Selector.calm (selector : Selector) : Calm ([' '].intercalate selector.words ++ [' ']) := by
  have hnot {c : Char} (hc : c = 'p' ∨ c = 'f') : ¬ ['o', c] <:+: [' '].intercalate selector.words ++ [' '] := by
    intro h
    have hspace : ' ' ∉ ['o', c] := by rcases hc with rfl | rfl <;> decide
    rcases infix_of_append_cons hspace h with h | h
    · obtain ⟨word, hword, hin⟩ := infix_of_intercalate hspace (List.cons_ne_nil _ _) h
      exact Selector.noOpen hword hc hin
    · cases List.eq_nil_of_infix_nil h
  refine ⟨hnot (Or.inl rfl), hnot (Or.inr rfl), ?_⟩
  rw [List.getLast?_append, List.getLast?_singleton, Option.some_or]
  decide

/-! ## The text after the substitutions -/

/-- The rule with `off` for `closed`. -/
def Rule.normal (r : Rule) : Rule := { r with hours := r.hours.normal }

/-- The text of rules that all end with a semicolon. -/
def semicolonText (rules : List Rule) : List Char := rules.flatMap fun r => r.text ++ [';', ' ']

theorem text_cons (r : Rule) (rules : List Rule) : text (r :: rules) = r.text ++ r.separator :: ' ' :: text rules := by
  rw [text, List.flatMap_cons, List.append_assoc]
  rfl

theorem semicolonText_cons (r : Rule) (rules : List Rule) :
    semicolonText (r :: rules) = r.text ++ ';' :: ' ' :: semicolonText rules := by
  rw [semicolonText, List.flatMap_cons, List.append_assoc]
  rfl

theorem isWord_eq_false {c : Char} (hascii : c.val < 128) (hc : (c.isAlphanum || c = '_') = false) :
    cls.isWord c = false := (cls.isWord_ascii c hascii).trans hc

theorem sub_closedWord_words (r : Rule) : r.words.map (sub (closedWord cls)) = r.normal.words := by
  have hself {l letters : List Char} (hl : ∀ c ∈ l, c ∈ letters) (hd : 'd' ∉ letters) : sub (closedWord cls) l = l :=
    sub_closedWord_eq_self fun h => not_mem_of_subset hl hd (h.subset (by decide))
  have hopen : sub (closedWord cls) "open".toList = "open".toList := hself (fun _ => id) (by decide)
  have hselector : r.selector.words.map (sub (closedWord cls)) = r.selector.words := by
    refine (List.map_congr_left fun word hword => ?_).trans (List.map_id _)
    have hd : 'd' ∉ r.selector.letters := by cases r.selector <;> simp only [Selector.letters] <;> decide
    exact hself (fun _ => Selector.mem_words hword) hd
  rw [Rule.words, List.map_append, hselector, Rule.words]
  refine congrArg _ ?_
  cases hr : r.hours with
  | times first rest withOpen =>
      have htimes := hself (fun c => @mem_times first rest c) (by decide)
      simp only [Hours.words, Rule.normal, Hours.normal, hr]
      rw [List.map_cons (f := sub (closedWord cls)), htimes]
      cases withOpen with
      | false => rfl
      | true => exact congrArg (_ :: [·]) hopen
  | openAllDay =>
      simp only [Hours.words, Rule.normal, Hours.normal, hr, hopen, List.map_cons, List.map_nil]
  | off closed =>
      have hoff : sub (closedWord cls) "off".toList = "off".toList := hself (fun _ => id) (by decide)
      have hclosed : sub (closedWord cls) "closed".toList = "off".toList := rfl
      cases closed <;>
        simp only [Hours.words, Rule.normal, Hours.normal, hr, hoff, hclosed, List.map_cons, List.map_nil, if_true,
          Bool.false_eq_true, if_false]

theorem sub_closedWord_rule {r : Rule} (h : r.Plain) : sub (closedWord cls) r.text = r.normal.text := by
  have hspace : (closedWord cls).Separated ' ' :=
    closedWord_separated (isWord_eq_false (by decide) (by decide)) (by decide)
  have hquote : (closedWord cls).Separated '"' :=
    closedWord_separated (isWord_eq_false (by decide) (by decide)) (by decide)
  have hwords : sub (closedWord cls) ([' '].intercalate r.words) = [' '].intercalate r.normal.words := by
    rw [sub_intercalate hspace, sub_closedWord_words]
  have hcomment : r.normal.comment = r.comment := rfl
  rw [Rule.text, Rule.text, hcomment]
  cases hc : r.comment with
  | none =>
      rw [List.append_nil, List.append_nil]
      exact hwords
  | some comment =>
      have hnil : sub (closedWord cls) [] = [] := rfl
      simp only [List.cons_append]
      rw [sub_separated hspace, hwords, ← List.nil_append ('"' :: (comment ++ ['"'])), sub_separated hquote, hnil,
        sub_separated hquote, hnil, sub_closedWord_eq_self (h.closed comment hc)]

theorem sub_closedWord_text {rules : List Rule} (h : ∀ r ∈ rules, r.Plain) :
    sub (closedWord cls) (text rules) = text (rules.map Rule.normal) := by
  have hspace : (closedWord cls).Separated ' ' :=
    closedWord_separated (isWord_eq_false (by decide) (by decide)) (by decide)
  induction rules with
  | nil => rfl
  | cons r rules ih =>
      rw [List.forall_mem_cons] at h
      have hseparator : (closedWord cls).Separated r.separator := by
        rw [Rule.separator]
        split <;> exact closedWord_separated (isWord_eq_false (by decide) (by decide)) (by decide)
      have hnil : sub (closedWord cls) [] = [] := rfl
      have hsame : r.normal.separator = r.separator := rfl
      rw [text_cons, sub_separated hseparator, sub_closedWord_rule h.1, ← List.nil_append (' ' :: text rules),
        sub_separated hspace, hnil, ih h.2, List.map_cons, text_cons, hsame, List.nil_append]

theorem Calm.append {l rest : List Char} (h : Calm (l ++ [' '])) (hrest : 'o' ∉ rest) : Calm (l ++ ' ' :: rest) := by
  have hnot {c : Char} (hc : c = 'p' ∨ c = 'f') (hl : ¬ ['o', c] <:+: l ++ [' ']) : ¬ ['o', c] <:+: l ++ ' ' :: rest := by
    intro hin
    rcases infix_of_append_cons (by rcases hc with rfl | rfl <;> decide) hin with hin | hin
    · exact hl (hin.trans (List.prefix_append l [' ']).isInfix)
    · exact hrest (hin.subset List.mem_cons_self)
  refine ⟨hnot (Or.inl rfl) h.noOpen, hnot (Or.inr rfl) h.noOff, fun hlast => ?_⟩
  rw [List.getLast?_append, List.getLast?_cons, Option.some_or] at hlast
  cases hrest' : rest.getLast? with
  | none => rw [hrest'] at hlast; cases hlast
  | some c =>
      rw [hrest'] at hlast
      cases hlast
      exact hrest (List.mem_of_getLast? hrest')

/-- The words that end a rule before a comma. -/
theorem words_split {r : Rule} (h : r.Plain) (hnormal : r.hours.normal = r.hours) :
    ∃ calm last, [' '].intercalate r.words = calm ++ last ∧ Calm calm ∧
      (last = [] ∧ r.ending ≠ .comma ∨ last = "open".toList ∨ last = "off".toList) := by
  have hcalm := r.selector.calm
  have hne := r.selector.words_ne_nil
  have hone (word : List Char) : [' '].intercalate (r.selector.words ++ [word]) =
      ([' '].intercalate r.selector.words ++ [' ']) ++ word := by
    rw [intercalate_concat _ hne, List.append_assoc, List.singleton_append]
  rw [Rule.words]
  cases hr : r.hours with
  | times first rest withOpen =>
      have htimes : 'o' ∉ [','].intercalate ((first :: rest).map TimeRange.text) :=
        not_mem_of_subset (fun _ => mem_times) (by decide)
      cases withOpen with
      | false =>
          refine ⟨_, [], (List.append_nil _).symm, ?_, Or.inl ⟨rfl, fun hcomma => ?_⟩⟩
          · simp only [Hours.words, Bool.false_eq_true, if_false]
            rw [intercalate_concat _ hne]
            exact hcalm.append htimes
          · have hlast := h.comma hcomma
            simp only [hr, Hours.words, Bool.false_eq_true, if_false, List.getLast?_singleton, List.mem_cons,
              Option.some.injEq, List.not_mem_nil, or_false] at hlast
            rcases hlast with hlast | hlast | hlast
            · exact htimes (hlast ▸ by decide)
            · exact htimes (hlast ▸ by decide)
            · exact htimes (hlast ▸ by decide)
      | true =>
          refine ⟨[' '].intercalate r.selector.words ++
            ' ' :: ([','].intercalate ((first :: rest).map TimeRange.text) ++ [' ']), "open".toList, ?_, ?_,
            Or.inr (Or.inl rfl)⟩
          · simp only [Hours.words, if_true]
            rw [List.append_cons, intercalate_concat _ (List.append_ne_nil_of_left_ne_nil hne _), intercalate_concat _ hne]
            simp only [List.append_assoc, List.cons_append, List.nil_append]
          · refine hcalm.append ?_
            rw [List.mem_append, List.mem_singleton]
            rintro (hmem | hmem)
            · exact htimes hmem
            · cases hmem
  | openAllDay => exact ⟨_, "open".toList, hone _, hcalm, Or.inr (Or.inl rfl)⟩
  | off closed =>
      rw [hr, Hours.normal] at hnormal
      obtain rfl : false = closed := Hours.off.inj hnormal
      exact ⟨_, "off".toList, hone _, hcalm, Or.inr (Or.inr rfl)⟩

theorem sub_endOfRule_text {rules : List Rule} (h : ∀ r ∈ rules, r.Plain)
    (hnormal : ∀ r ∈ rules, r.hours.normal = r.hours) : sub endOfRule (text rules) = semicolonText rules := by
  have hsemicolon : endOfRule.Separated ';' := endOfRule_separated (by decide) (by decide) (by decide)
  have hquote : endOfRule.Separated '"' := endOfRule_separated (by decide) (by decide) (by decide)
  have hspace (l : List Char) : sub endOfRule (' ' :: l) = ' ' :: sub endOfRule l :=
    Calm.subFrom (l := [' ']) ⟨by decide, by decide, by decide⟩ none
  have hafter (l : List Char) : subFrom endOfRule (some ',') 0 l = sub endOfRule l := by
    cases l with
    | nil => rfl
    | cons c l => rfl
  induction rules with
  | nil => rfl
  | cons r rules ih =>
      rw [List.forall_mem_cons] at h hnormal
      obtain ⟨calm, last, hsplit, hcalm, hlast⟩ := words_split h.1 hnormal.1
      rw [text_cons, semicolonText_cons, Rule.text, hsplit]
      cases hending : r.ending with
      | comma =>
          have hcomment : r.comment = none := by rw [Rule.comment, hending]
          have hseparator : r.separator = ',' := by rw [Rule.separator, hending]
          rw [hcomment, hseparator, List.append_nil, List.append_assoc, sub, hcalm.subFrom, List.append_assoc]
          refine congrArg _ ?_
          rcases hlast with ⟨-, hne⟩ | rfl | rfl
          · exact absurd hending hne
          · have hmatch : sub endOfRule ("open".toList ++ ',' :: ' ' :: text rules) =
                "open;".toList ++ subFrom endOfRule (some ',') 0 (' ' :: text rules) := rfl
            rw [hmatch, hafter, hspace, ih h.2 hnormal.2]
            rfl
          · have hmatch : sub endOfRule ("off".toList ++ ',' :: ' ' :: text rules) =
                "off;".toList ++ subFrom endOfRule (some ',') 0 (' ' :: text rules) := rfl
            rw [hmatch, hafter, hspace, ih h.2 hnormal.2]
            rfl
      | semicolon comment =>
          have hcomment : r.comment = comment := by rw [Rule.comment, hending]
          have hseparator : r.separator = ';' := by rw [Rule.separator, hending]
          rw [hcomment, hseparator, sub_separated hsemicolon, hspace, ih h.2 hnormal.2]
          refine congrArg (· ++ _) ?_
          cases hc : comment with
          | none =>
              rw [List.append_nil, sub, hcalm.subFrom]
              rcases hlast with ⟨rfl, -⟩ | rfl | rfl <;> rfl
          | some comment =>
              have hself : sub endOfRule comment = comment := by
                refine sub_eq_self fun before l₁ l₂ heq _ => ?_
                rw [Option.eq_none_iff_forall_ne_some]
                rintro ⟨text, n⟩ hsome
                obtain ⟨word, hword, spaces, rest, rfl, -⟩ := endOfRule_eq_some.mp hsome
                simp only [List.mem_cons, List.not_mem_nil, or_false] at hword
                rcases hword with rfl | rfl
                · exact h.1.opened comment (hcomment.trans hc) ⟨l₁, _, by rw [heq, List.append_assoc]⟩
                · exact h.1.off comment (hcomment.trans hc) ⟨l₁, _, by rw [heq, List.append_assoc]⟩
              have hbody : sub endOfRule (calm ++ (last ++ [' '])) = calm ++ (last ++ [' ']) := by
                rw [sub, hcalm.subFrom]
                rcases hlast with ⟨rfl, -⟩ | rfl | rfl <;> rfl
              have hcons : calm ++ last ++ (' ' :: '"' :: comment ++ ['"']) =
                  calm ++ (last ++ [' ']) ++ '"' :: (comment ++ '"' :: []) := by simp
              rw [hcons, sub_separated hquote, hbody, sub_separated hquote, hself]
              rfl

theorem plain_normal {rules : List Rule} (h : ∀ r ∈ rules, r.Plain) :
    (∀ r ∈ rules.map Rule.normal, r.Plain) ∧ ∀ r ∈ rules.map Rule.normal, r.hours.normal = r.hours := by
  refine ⟨fun r hr => ?_, fun r hr => ?_⟩
  · obtain ⟨r, hmem, rfl⟩ := List.mem_map.mp hr
    obtain ⟨hquote, hsemicolon, hclosed, hopened, hoff, hcomma⟩ := h r hmem
    refine ⟨hquote, hsemicolon, hclosed, hopened, hoff, fun hending => ?_⟩
    have hlast := hcomma hending
    rw [Rule.normal]
    cases hhours : r.hours with
    | times first rest withOpen => rw [hhours] at hlast; exact hlast
    | openAllDay => exact List.mem_cons_self
    | off closed => exact List.mem_cons_of_mem _ List.mem_cons_self
  · obtain ⟨r, -, rfl⟩ := List.mem_map.mp hr
    rw [Rule.normal]
    cases r.hours <;> rfl

theorem normalise_text {rules : List Rule} (h : ∀ r ∈ rules, r.Plain) :
    normalise cls (text rules) = semicolonText (rules.map Rule.normal) := by
  rw [normalise, sub_closedWord_text h]
  exact sub_endOfRule_text (plain_normal h).1 (plain_normal h).2

/-! ## The words of a rule -/

theorem Rule.mem_words (r : Rule) : ∀ word ∈ r.words, word ≠ [] ∧ ∀ d ∈ word, isSpace d = false := by
  have hcommas {l : List Char} (hl : l ≠ []) (ls : List (List Char)) : [','].intercalate (l :: ls) ≠ [] := by
    intro hnil
    have hhead := head?_intercalate ',' hl ls
    rw [hnil] at hhead
    exact hl (List.head?_eq_none_iff.mp hhead.symm)
  have hday (day : Fin 7) : dayName day ≠ [] := by
    revert day
    decide
  have hmonth (month : Fin 12) : monthName month ≠ [] := by
    revert month
    decide
  have hnumber (n : Fin 100) : dayNumber n ≠ [] := by
    rw [dayNumber]
    split <;> exact List.cons_ne_nil _ _
  have happend {l : List Char} (hl : l ≠ []) (rest : List Char) : l ++ rest ≠ [] :=
    List.append_ne_nil_of_left_ne_nil hl rest
  have hselector : ∀ word ∈ r.selector.words, word ≠ [] := by
    cases r.selector with
    | days first rest =>
        rintro word hword
        obtain rfl := List.mem_singleton.mp hword
        refine hcommas ?_ _
        cases first with
        | day d => exact hday d
        | range first last => exact happend (hday first) _
    | holidays =>
        rintro word hword
        obtain rfl := List.mem_singleton.mp hword
        exact List.cons_ne_nil _ _
    | months selector =>
        cases selector <;> simp only [Selector.words, MonthSelector.words, List.mem_cons, List.not_mem_nil, or_false,
          forall_eq, forall_eq_or_imp]
        case month m => exact hmonth m
        case months first second rest => exact hcommas (hmonth first) _
        case range first last => exact happend (hmonth first) _
        case date m d => exact ⟨hmonth m, hnumber d⟩
        case dateRange m first last => exact ⟨hmonth m, happend (hnumber first) _⟩
        case dates m d m' d' => exact ⟨hmonth m, happend (hnumber d) _, hnumber d'⟩
  have hhours : ∀ word ∈ r.hours.words, word ≠ [] := by
    intro word hword
    cases hr : r.hours with
    | times first rest withOpen =>
        rw [hr, Hours.words, List.mem_cons] at hword
        rcases hword with rfl | hword
        · exact hcommas (happend (happend (List.cons_ne_nil _ _) _) _) _
        · cases withOpen with
          | false => cases hword
          | true => exact List.mem_singleton.mp hword ▸ List.cons_ne_nil _ _
    | openAllDay =>
        rw [hr] at hword
        exact List.mem_singleton.mp hword ▸ List.cons_ne_nil _ _
    | off closed =>
        rw [hr] at hword
        obtain rfl := List.mem_singleton.mp hword
        cases closed <;> exact List.cons_ne_nil _ _
  exact fun word hword => ⟨(List.mem_append.mp hword).elim (hselector word) (hhours word),
    fun c hc => isSpace_of_visible (Rule.forall_mem (p := fun c => 33 ≤ c.toNat) (by decide) hword c hc)
      (Rule.forall_mem (p := fun c => c.toNat ≤ 126) (by decide) hword c hc)⟩

theorem Rule.words_ne_nil (r : Rule) : r.words ≠ [] :=
  List.append_ne_nil_of_left_ne_nil r.selector.words_ne_nil _

theorem Rule.intercalate_words_ne_nil (r : Rule) : [' '].intercalate r.words ≠ [] := by
  obtain ⟨word, ws, hws⟩ := List.exists_cons_of_ne_nil r.words_ne_nil
  have hword := (r.mem_words word (hws ▸ List.mem_cons_self)).1
  intro hnil
  have hhead := head?_intercalate ' ' hword ws
  rw [← hws, hnil] at hhead
  exact hword (List.head?_eq_none_iff.mp hhead.symm)

theorem Rule.strip_text (r : Rule) : strip r.text = r.text := by
  obtain ⟨hfirst, hlast⟩ := intercalate_ends r.mem_words
  rw [Rule.text]
  cases r.comment with
  | none =>
      rw [List.append_nil]
      exact strip_of_ends hfirst hlast
  | some comment =>
      refine strip_of_ends (fun c hc => hfirst c ?_) fun c hc => ?_
      · rwa [List.head?_append_of_ne_nil _ r.intercalate_words_ne_nil] at hc
      · rw [← List.append_assoc, List.getLast?_append, List.getLast?_singleton, Option.some_or, Option.mem_def,
          Option.some.injEq] at hc
        rw [← hc]
        decide

/-- The quotes of a rule are those of its comment. -/
theorem Rule.quote_notMem_words (r : Rule) : '"' ∉ [' '].intercalate r.words := by
  intro h
  rcases mem_intercalate h with h | ⟨word, hword, h⟩
  · cases h
  · exact Rule.forall_mem (p := (· ≠ '"')) (by decide) hword '"' h rfl

theorem Rule.quotedText_text {r : Rule} (h : r.Plain) : quotedText r.text = r.comment := by
  have hskip (rest : List Char) : ([' '].intercalate r.words ++ rest).dropWhile (· ≠ '"') =
      rest.dropWhile (· ≠ '"') := by
    refine List.dropWhile_append_of_pos fun c hc => ?_
    rw [decide_eq_true_eq]
    rintro rfl
    exact r.quote_notMem_words hc
  rw [quotedText, Rule.text, hskip]
  cases hc : r.comment with
  | none => rfl
  | some comment =>
      have hquote := h.quote comment hc
      have htail : ((' ' :: '"' :: comment ++ ['"']).dropWhile (· ≠ '"')).tail = comment ++ ['"'] := rfl
      rw [htail]
      simp only [List.mem_append, List.mem_singleton, or_true, if_true]
      rw [List.takeWhile_append_of_pos fun c hc => by rw [decide_eq_true_eq]; rintro rfl; exact hquote hc]
      simp

theorem Rule.words_text {r : Rule} (h : r.Plain) : Lib.words (strip (sub quoted r.text)) = r.words := by
  have hcopy (rest : List Char) (hnot : '"' ∉ rest) (before : Option Char) (after : List Char) :
      subFrom quoted before 0 (rest ++ after) = rest ++ subFrom quoted (rest.getLast?.or before) 0 after := by
    refine subFrom_append fun before l₁ l₂ heq hne => ?_
    cases l₂ with
    | nil => exact absurd rfl hne
    | cons c l₂ =>
        have hc : c ≠ '"' := by
          rintro rfl
          exact hnot (heq ▸ List.mem_append_right l₁ List.mem_cons_self)
        rw [List.cons_append, quoted]
        rintro l hcons
        exact hc (List.cons.inj hcons).1
  have hstrip : strip ([' '].intercalate r.words) = [' '].intercalate r.words :=
    strip_of_ends (intercalate_ends r.mem_words).1 (intercalate_ends r.mem_words).2
  rw [Rule.text]
  cases hc : r.comment with
  | none =>
      rw [sub, hcopy _ r.quote_notMem_words, subFrom_nil, List.append_nil, hstrip, words_intercalate r.mem_words]
  | some comment =>
      have hquote := h.quote comment hc
      have hmatch (before : Option Char) : quoted before ('"' :: (comment ++ ['"'])) = some ([], comment.length + 1) := by
        simp only [quoted, List.mem_append, List.mem_singleton, or_true, if_true]
        rw [List.takeWhile_append_of_pos fun c hc => by rw [decide_eq_true_eq]; rintro rfl; exact hquote hc]
        simp
      have hcons : [' '].intercalate r.words ++ (' ' :: '"' :: comment ++ ['"']) =
          ([' '].intercalate r.words ++ [' ']) ++ '"' :: (comment ++ ['"']) := by simp
      have hskip (before : Option Char) : subFrom quoted before (comment.length + 1) (comment ++ ['"']) = [] := by
        have hfrom := subFrom_skip (p := quoted) before (comment ++ ['"']) []
        rwa [List.length_append, List.length_singleton, List.append_nil, subFrom_nil] at hfrom
      have hnot : '"' ∉ [' '].intercalate r.words ++ [' '] := by
        rw [List.mem_append, List.mem_singleton]
        rintro (hmem | hmem)
        · exact r.quote_notMem_words hmem
        · cases hmem
      rw [hcons, sub, hcopy _ hnot, subFrom_of_some (hmatch _), hskip, List.append_nil, List.append_nil,
        strip_concat (by decide), hstrip, words_intercalate r.mem_words]

/-! ## What the parser does with a rule -/

/-- What a rule adds to what the loop has filled. -/
structure Effect where
  openDays : List (Fin 7)
  times : List (List Char)
  comment : Option (List Char)
  openAllDay : Bool
  closesHolidays : Bool
  closures : List (List Char)

def Effect.apply (e : Effect) (parsed : Parsed) : Parsed where
  schedule := e.openDays.foldl (addTimes e.times e.comment e.openAllDay) parsed.schedule
  hasPhOff := parsed.hasPhOff || e.closesHolidays
  comments := parsed.comments ++ e.closures

def Rule.effect (r : Rule) : Effect :=
  ⟨r.openDays, r.hours.timeRanges.map TimeRange.text, r.comment, r.opensAllDay, r.closesHolidays, r.closure.toList⟩

theorem isTimeRange_text (t : TimeRange) : isTimeRange cls t.text = true := by
  have hdigit (n : Nat) (hn : n < 10) : (cls.digit (Nat.digitChar n)).isSome = true := digit_isSome (digitChar_mem hn)
  simp only [TimeRange.text, digits2, List.cons_append, List.nil_append, isTimeRange, List.all_cons, List.all_nil,
    Bool.and_true, Bool.and_eq_true]
  refine ⟨?_, ?_, ?_, ?_, ?_, ?_, ?_, ?_⟩ <;> exact hdigit _ (by omega)

/-- A rule says `PH off` only when it closes the public holidays. -/
theorem Rule.noPhOff {r : Rule} (h : r.Plain) (hnot : r.closesHolidays = false) : ¬ "PH off".toList <:+: r.text := by
  have hwords : ¬ "PH off".toList <:+: [' '].intercalate r.words ++ [' '] := by
    intro hin
    have hmem {c : Char} (hc : c ∈ "PH off".toList) (hspace : c ≠ ' ') : ∃ word ∈ r.words, c ∈ word := by
      rcases List.mem_append.mp (hin.subset hc) with hc | hc
      · exact (mem_intercalate hc).resolve_left hspace
      · exact absurd (List.mem_singleton.mp hc) hspace
    have hP' : 'P' ∉ r.hours.letters := by cases r.hours <;> simp only [Hours.letters] <;> decide
    obtain ⟨word, hword, hP⟩ := hmem (c := 'P') (by decide) (by decide)
    have hholidays : r.selector = .holidays := by
      rcases List.mem_append.mp hword with hword | hword
      · have hletters := Selector.mem_words hword hP
        cases hs : r.selector with
        | days first rest =>
            rw [hs, Selector.letters] at hletters
            exact absurd hletters (by decide)
        | holidays => rfl
        | months selector =>
            rw [hs, Selector.letters] at hletters
            exact absurd hletters (by decide)
      · exact absurd (Hours.mem_words hword hP) hP'
    have hf' : 'f' ∉ r.hours.letters := by
      cases hr : r.hours with
      | times first rest withOpen => exact (by decide : 'f' ∉ ',' :: ':' :: '-' :: (digitLetters ++ ['o', 'p', 'e', 'n']))
      | openAllDay => exact (by decide : 'f' ∉ ['o', 'p', 'e', 'n'])
      | off closed =>
          rw [Rule.closesHolidays, hholidays, hr] at hnot
          cases hnot
    obtain ⟨word, hword, hf⟩ := hmem (c := 'f') (by decide) (by decide)
    rcases List.mem_append.mp hword with hword | hword
    · rw [hholidays] at hword
      obtain rfl := List.mem_singleton.mp hword
      exact absurd hf (by decide)
    · exact hf' (Hours.mem_words hword hf)
  intro hin
  rw [Rule.text] at hin
  cases hc : r.comment with
  | none =>
      rw [hc, List.append_nil] at hin
      exact hwords (hin.trans (List.prefix_append _ _).isInfix)
  | some comment =>
      have hcons : [' '].intercalate r.words ++ (' ' :: '"' :: comment ++ ['"']) =
          ([' '].intercalate r.words ++ [' ']) ++ '"' :: (comment ++ '"' :: []) := by simp
      rw [hc, hcons] at hin
      rcases infix_of_append_cons (by decide) hin with hin | hin
      · exact hwords hin
      · rcases infix_of_append_cons (by decide) hin with hin | hin
        · exact h.off comment hc (List.IsInfix.trans ⟨"PH ".toList, [], rfl⟩ hin)
        · cases List.eq_nil_of_infix_nil hin

theorem lookup_firstDay_months (selector : MonthSelector) :
    ∃ first rest, selector.words = first :: rest ∧ days.lookup (firstDay first) = none := by
  have hnone (month : Fin 12) : days.lookup (monthName month) = none := by
    revert month
    decide
  have hcomma (month : Fin 12) : ',' ∉ monthName month := not_mem_of_subset (fun _ => mem_monthName) (by decide)
  have hname (month : Fin 12) : firstDay (monthName month) = monthName month := by
    rw [firstDay, List.splitOn_eq_singleton (hcomma month), List.headD_cons,
      List.splitOn_eq_singleton (dash_notMem_monthName month), List.headD_cons]
  cases selector with
  | month m => exact ⟨_, _, rfl, by rw [hname, hnone]⟩
  | months first second rest =>
      refine ⟨_, _, rfl, ?_⟩
      rw [List.map_cons, List.map_cons, List.intercalate_cons_cons, List.append_assoc, List.singleton_append, firstDay,
        List.splitOn_append_cons_self_of_not_mem (hcomma first), List.headD_cons,
        List.splitOn_eq_singleton (dash_notMem_monthName first), List.headD_cons, hnone]
  | range first last =>
      refine ⟨_, _, rfl, ?_⟩
      have hnot : ',' ∉ monthName first ++ '-' :: monthName last := by
        rw [List.mem_append, List.mem_cons]
        rintro (h | h | h)
        · exact hcomma first h
        · cases h
        · exact hcomma last h
      rw [firstDay, List.splitOn_eq_singleton hnot, List.headD_cons,
        List.splitOn_append_cons_self_of_not_mem (dash_notMem_monthName first), List.headD_cons, hnone]
  | date m d => exact ⟨_, _, rfl, by rw [hname, hnone]⟩
  | dateRange m first last => exact ⟨_, _, rfl, by rw [hname, hnone]⟩
  | dates m d m' d' => exact ⟨_, _, rfl, by rw [hname, hnone]⟩

theorem parseDays_words (first : DayRange) (rest : List DayRange) (r : Rule) (parsed : Parsed)
    (hselector : r.selector = .days first rest) (hnormal : r.hours.normal = r.hours) :
    parseDays cls ([','].intercalate ((first :: rest).map DayRange.text)) r.hours.words r.comment parsed =
      .ok (r.effect.apply parsed) := by
  have hnot : "off".toList ≠ [','].intercalate ((first :: rest).map DayRange.text) := by
    intro heq
    have hf : 'f' ∈ (Selector.days first rest).letters :=
      @Selector.mem_words (.days first rest) _ List.mem_cons_self _ (heq ▸ by decide)
    exact absurd hf (by decide : 'f' ∉ ',' :: '-' :: dayLetters)
  have happly (schedule : Schedule) (hschedule : schedule = (r.effect.apply parsed).schedule)
      (hcloses : r.closesHolidays = false) (hclosure : r.closure = none) :
      { parsed with schedule } = r.effect.apply parsed := by
    simp only [hschedule, Effect.apply, Rule.effect, hcloses, hclosure, Bool.or_false, Option.toList_none, List.append_nil]
  cases hr : r.hours with
  | times firstTime restTimes withOpen =>
      have hsplit : ([','].intercalate ((firstTime :: restTimes).map TimeRange.text)).splitOn ',' =
          (firstTime :: restTimes).map TimeRange.text := by
        refine List.splitOn_intercalate _ (fun l hl => ?_) (List.cons_ne_nil _ _)
        obtain ⟨t, _, rfl⟩ := List.mem_map.mp hl
        exact not_mem_of_subset (fun _ => TimeRange.mem_text) (by decide)
      have hrest : (if withOpen then ["open".toList] else []).flatMap (·.splitOn ',') =
          if withOpen then ["open".toList] else [] := by
        cases withOpen
        · rfl
        · exact congrArg (· ++ []) (List.splitOn_eq_singleton (by decide))
      have hfilter : (((Hours.times firstTime restTimes withOpen).words.flatMap (·.splitOn ',')).filter
          (isTimeRange cls)) = (firstTime :: restTimes).map TimeRange.text := by
        have hself : ((firstTime :: restTimes).map TimeRange.text).filter (isTimeRange cls) =
            (firstTime :: restTimes).map TimeRange.text := by
          refine List.filter_eq_self.mpr fun l hl => ?_
          obtain ⟨t, _, rfl⟩ := List.mem_map.mp hl
          exact isTimeRange_text t
        have hopen : (if withOpen then ["open".toList] else []).filter (isTimeRange cls) = [] := by
          cases withOpen <;> rfl
        rw [Hours.words, List.flatMap_cons, hsplit, hrest, List.filter_append, hself, hopen, List.append_nil]
      have hmem : "off".toList ∉ [','].intercalate ((first :: rest).map DayRange.text) ::
          (Hours.times firstTime restTimes withOpen).words := by
        rw [Hours.words, List.mem_cons, List.mem_cons]
        rintro (heq | heq | hmem)
        · exact hnot heq
        · exact not_mem_of_subset (fun _ => mem_times) (by decide) (heq ▸ (by decide : 'f' ∈ "off".toList))
        · cases withOpen with
          | false => cases hmem
          | true => exact absurd (List.mem_singleton.mp hmem) (by decide)
      have hne : (firstTime :: restTimes).map TimeRange.text ≠ [] := List.cons_ne_nil _ _
      simp only [parseDays, List.contains_iff_mem, if_neg hmem, hfilter, hne, false_and, if_false, expandDaySelector_days]
      refine congrArg Except.ok (happly _ ?_ ?_ ?_)
      · simp only [Effect.apply, Rule.effect, Rule.openDays, Rule.opensAllDay, hselector, hr, Hours.timeRanges, decide_false]
      · simp only [Rule.closesHolidays, hselector]
      · simp only [Rule.closure, hselector]
  | openAllDay =>
      have hmem : "off".toList ∉ [[','].intercalate ((first :: rest).map DayRange.text), "open".toList] := by
        rw [List.mem_pair]
        rintro (heq | heq)
        · exact hnot heq
        · exact absurd heq (by decide)
      have hfilter : (["open".toList].flatMap (·.splitOn ',')).filter (isTimeRange cls) = [] := by
        rw [List.flatMap_singleton, List.splitOn_eq_singleton (by decide)]
        rfl
      have hopen : "open".toList ∈ [[','].intercalate ((first :: rest).map DayRange.text), "open".toList] :=
        List.mem_cons_of_mem _ List.mem_cons_self
      simp only [parseDays, Hours.words, List.contains_iff_mem, if_neg hmem, hfilter, hopen, and_self, not_true_eq_false,
        and_false, if_false, expandDaySelector_days]
      refine congrArg Except.ok (happly _ ?_ ?_ ?_)
      · simp only [Effect.apply, Rule.effect, Rule.openDays, Rule.opensAllDay, hselector, hr, Hours.timeRanges, decide_true,
          List.map_nil]
      · simp only [Rule.closesHolidays, hselector]
      · simp only [Rule.closure, hselector]
  | off closed =>
      rw [hr, Hours.normal] at hnormal
      obtain rfl : false = closed := Hours.off.inj hnormal
      have hmem : "off".toList ∈ [[','].intercalate ((first :: rest).map DayRange.text), "off".toList] :=
        List.mem_cons_of_mem _ List.mem_cons_self
      simp only [parseDays, Hours.words, List.contains_iff_mem, Bool.false_eq_true, if_false, if_pos hmem]
      refine congrArg Except.ok (happly parsed.schedule ?_ ?_ ?_)
      · simp only [Effect.apply, Rule.effect, Rule.openDays, hselector, hr, List.foldl_nil]
      · simp only [Rule.closesHolidays, hselector]
      · simp only [Rule.closure, hselector, hr]

/-- One turn of the loop on the text of a rule. -/
theorem parseRule_text {r : Rule} (h : r.Plain) (hnormal : r.hours.normal = r.hours) {spaces : List Char}
    (hspaces : ∀ c ∈ spaces, isSpace c = true) (parsed : Parsed) :
    parseRule cls parsed (spaces ++ r.text) = .ok (r.effect.apply parsed) := by
  have hne : r.text ≠ [] := List.append_ne_nil_of_left_ne_nil r.intercalate_words_ne_nil _
  simp only [parseRule, strip_append_left hspaces, r.strip_text, if_neg hne]
  cases hcloses : r.closesHolidays with
  | true =>
      obtain ⟨hselector, closed, hoff⟩ : r.selector = .holidays ∧ ∃ closed, r.hours = .off closed := by
        rw [Rule.closesHolidays] at hcloses
        split at hcloses
        · rename_i closed hselector hoff
          exact ⟨hselector, closed, hoff⟩
        · cases hcloses
      rw [hoff, Hours.normal] at hnormal
      obtain rfl : false = closed := Hours.off.inj hnormal
      have hin : "PH off".toList <:+: r.text := by
        rw [Rule.text, Rule.words, hselector, hoff]
        exact (List.prefix_append _ _).isInfix
      simp only [if_pos hin, Effect.apply, Rule.effect, Rule.openDays, Rule.closure, hselector, hcloses, List.foldl_nil,
        Option.toList_none, List.append_nil, Bool.or_true]
  | false =>
      simp only [if_neg (Rule.noPhOff h hcloses), Rule.words_text h, Rule.quotedText_text h]
      rw [Rule.words]
      cases hselector : r.selector with
      | days first rest =>
          simp only [Selector.words, List.cons_append, List.nil_append, firstDay_days, if_true]
          exact parseDays_words first rest r parsed hselector hnormal
      | holidays =>
          have hlookup : days.lookup (firstDay "PH".toList) = none := by decide
          have hlast : ("PH".toList :: r.hours.words).getLast? ≠ some "off".toList := by
            cases hr : r.hours with
            | times first rest withOpen =>
                cases withOpen with
                | false =>
                    simp only [Hours.words, Bool.false_eq_true, if_false, List.getLast?_cons, List.getLast?_nil,
                      Option.getD_none, Option.getD_some, ne_eq, Option.some.injEq]
                    intro heq
                    exact not_mem_of_subset (fun _ => mem_times) (by decide) (heq ▸ (by decide : 'f' ∈ "off".toList))
                | true =>
                    simp only [Hours.words, if_true, List.getLast?_cons, List.getLast?_nil, Option.getD_none,
                      Option.getD_some]
                    decide
            | openAllDay => decide
            | off closed =>
                rw [Rule.closesHolidays, hselector, hr] at hcloses
                cases hcloses
          simp only [Selector.words, List.cons_append, List.nil_append, hlookup, Option.isSome_none, Bool.false_eq_true,
            if_false, parseOther, if_neg hlast]
          simp only [Effect.apply, Rule.effect, Rule.openDays, Rule.closure, hselector, hcloses, List.foldl_nil, Option.toList_none,
            List.append_nil, Bool.or_false]
      | months selector =>
          obtain ⟨first, rest, hwords, hlookup⟩ := lookup_firstDay_months selector
          have hother : parseOther cls (selector.words ++ r.hours.words) parsed = .ok (r.effect.apply parsed) := by
            rw [parseOther]
            cases hr : r.hours with
            | times firstTime restTimes withOpen =>
                have hlast : (selector.words ++ (Hours.times firstTime restTimes withOpen).words).getLast? ≠
                    some "off".toList := by
                  cases withOpen with
                  | false =>
                      simp only [Hours.words, Bool.false_eq_true, if_false, List.getLast?_append,
                        List.getLast?_singleton, Option.some_or, ne_eq, Option.some.injEq]
                      intro heq
                      exact not_mem_of_subset (fun _ => mem_times) (by decide) (heq ▸ (by decide : 'f' ∈ "off".toList))
                  | true =>
                      simp only [Hours.words, if_true, List.getLast?_append, List.getLast?_cons, List.getLast?_nil,
                        Option.getD_none, Option.getD_some, Option.some_or]
                      decide
                rw [if_neg hlast]
                simp only [Effect.apply, Rule.effect, Rule.openDays, Rule.closure, hselector, hr, hcloses, List.foldl_nil,
                  Option.toList_none, List.append_nil, Bool.or_false]
            | openAllDay =>
                have hlast : (selector.words ++ Hours.openAllDay.words).getLast? ≠ some "off".toList := by
                  simp only [Hours.words, List.getLast?_append, List.getLast?_singleton, Option.some_or]
                  decide
                rw [if_neg hlast]
                simp only [Effect.apply, Rule.effect, Rule.openDays, Rule.closure, hselector, hr, hcloses, List.foldl_nil,
                  Option.toList_none, List.append_nil, Bool.or_false]
            | off closed =>
                rw [hr, Hours.normal] at hnormal
                obtain rfl : false = closed := Hours.off.inj hnormal
                have hlast : (selector.words ++ (Hours.off false).words).getLast? = some "off".toList := by
                  simp only [Hours.words, List.getLast?_append, List.getLast?_singleton, Option.some_or,
                    Bool.false_eq_true, if_false]
                have hdrop : (selector.words ++ (Hours.off false).words).dropLast = selector.words := List.dropLast_concat
                rw [if_pos hlast, hdrop, translateMonthOff_words]
                simp only [Effect.apply, Rule.effect, Rule.openDays, Rule.closure, hselector, hr, hcloses, List.foldl_nil,
                  Option.toList_some, Bool.or_false]
                rfl
          rw [hwords] at hother
          simp only [Selector.words, hwords, List.cons_append, hlookup, Option.isSome_none, Bool.false_eq_true, if_false]
          exact hother

/-! ## All the rules -/

theorem splitOn_semicolonText {rules : List Rule} (h : ∀ r ∈ rules, r.Plain) (hnormal : ∀ r ∈ rules, r.hours.normal = r.hours)
    {spaces : List Char} (hspaces : ∀ c ∈ spaces, isSpace c = true) (parsed : Parsed) :
    ((spaces ++ semicolonText rules).splitOn ';').foldlM (parseRule cls) parsed =
      .ok (rules.foldl (fun parsed r => r.effect.apply parsed) parsed) := by
  have hsemicolon : ';' ∉ spaces := fun hmem => absurd (hspaces ';' hmem) (by decide)
  induction rules generalizing spaces parsed with
  | nil =>
      have hstrip : strip spaces = [] := by
        have happend := strip_append_left hspaces []
        rwa [List.append_nil] at happend
      have hrule : parseRule cls parsed spaces = .ok parsed := by simp only [parseRule, hstrip, if_true]
      have hnil : semicolonText [] = [] := rfl
      rw [hnil, List.append_nil, List.splitOn_eq_singleton hsemicolon, List.foldlM_cons, hrule]
      rfl
  | cons r rules ih =>
      rw [List.forall_mem_cons] at h hnormal
      have hnot : ';' ∉ r.text := by
        rw [Rule.text, List.mem_append]
        rintro (hmem | hmem)
        · rcases mem_intercalate hmem with hmem | ⟨word, hword, hmem⟩
          · cases hmem
          · exact Rule.forall_mem (p := (· ≠ ';')) (by decide) hword ';' hmem rfl
        · cases hc : r.comment with
          | none =>
              rw [hc] at hmem
              cases hmem
          | some comment =>
              rw [hc] at hmem
              simp only [List.cons_append, List.mem_cons, List.mem_append, List.not_mem_nil, or_false] at hmem
              rcases hmem with hmem | hmem | hmem | hmem
              · cases hmem
              · cases hmem
              · exact h.1.semicolon comment hc hmem
              · cases hmem
      rw [semicolonText_cons, ← List.append_assoc, List.splitOn_append_cons_self_of_not_mem (by
        rw [List.mem_append]
        exact fun hmem => hmem.elim hsemicolon hnot), List.foldlM_cons, parseRule_text h.1 hnormal.1 hspaces]
      exact ih h.2 hnormal.2 (List.forall_mem_singleton.mpr (by decide)) _ (by decide)

/-- A rule that opens a day, once. -/
def Effect.merge (schedule : Option DaySchedule) (e : Effect) : Option DaySchedule :=
  let daySchedule := schedule.getD ⟨[], e.comment, false⟩
  some { daySchedule with
    times := daySchedule.times ++ e.times
    openAllDay := daySchedule.openAllDay || e.openAllDay }

/-- One copy of a rule for each time that it names the day. -/
def Effect.copies (day : Fin 7) (e : Effect) : List Effect := (e.openDays.filter (· = day)).map fun _ => e

theorem Effect.schedule_apply (e : Effect) (schedule : Schedule) (day : Fin 7) :
    e.openDays.foldl (addTimes e.times e.comment e.openAllDay) schedule day =
      (e.copies day).foldl Effect.merge (schedule day) := by
  rw [copies]
  induction e.openDays generalizing schedule with
  | nil => rfl
  | cons d ds ih =>
      rw [List.foldl_cons, ih]
      by_cases hd : d = day
      · have hfilter : (d :: ds).filter (· = day) = d :: ds.filter (· = day) :=
          List.filter_cons_of_pos (decide_eq_true hd)
        rw [hfilter, List.map_cons, List.foldl_cons, ← hd, addTimes, Function.update_self]
        rfl
      · have hfilter : (d :: ds).filter (· = day) = ds.filter (· = day) :=
          List.filter_cons_of_neg (by rw [decide_eq_true_eq]; exact hd)
        rw [hfilter, addTimes, Function.update_of_ne (Ne.symm hd)]

theorem foldl_merge_some (es : List Effect) (schedule : DaySchedule) :
    es.foldl Effect.merge (some schedule) = some ⟨schedule.times ++ es.flatMap Effect.times, schedule.comment,
      schedule.openAllDay || es.any Effect.openAllDay⟩ := by
  induction es generalizing schedule with
  | nil => simp
  | cons e es ih =>
      rw [List.foldl_cons, Effect.merge, ih]
      simp only [Option.getD_some, List.flatMap_cons, List.append_assoc, List.any_cons, Bool.or_assoc]

theorem foldl_merge_none (es : List Effect) :
    es.foldl Effect.merge none = es.head?.map fun first =>
      ⟨es.flatMap Effect.times, first.comment, es.any Effect.openAllDay⟩ := by
  cases es with
  | nil => rfl
  | cons e es =>
      rw [List.foldl_cons, Effect.merge, foldl_merge_some]
      simp only [Option.getD_none, List.nil_append, Bool.false_or, List.flatMap_cons, List.any_cons, List.head?_cons,
        Option.map_some]

theorem schedule_foldl (rules : List Rule) (parsed : Parsed) (day : Fin 7) :
    (rules.foldl (fun parsed r => r.effect.apply parsed) parsed).schedule day =
      ((openings rules day).map Rule.effect).foldl Effect.merge (parsed.schedule day) := by
  induction rules generalizing parsed with
  | nil => rfl
  | cons r rules ih =>
      have hcons : openings (r :: rules) day = ((r.openDays.filter (· = day)).map fun _ => r) ++ openings rules day :=
        List.flatMap_cons
      rw [List.foldl_cons, ih, hcons, List.map_append, List.foldl_append, List.map_map]
      exact congrArg (List.foldl _ · _) (r.effect.schedule_apply parsed.schedule day)

theorem foldl_apply (rules : List Rule) (parsed : Parsed) :
    (rules.foldl (fun parsed r => r.effect.apply parsed) parsed).hasPhOff =
        (parsed.hasPhOff || rules.any Rule.closesHolidays) ∧
      (rules.foldl (fun parsed r => r.effect.apply parsed) parsed).comments =
        parsed.comments ++ rules.filterMap Rule.closure := by
  induction rules generalizing parsed with
  | nil => simp
  | cons r rules ih =>
      obtain ⟨hhasPhOff, hcomments⟩ := ih (r.effect.apply parsed)
      rw [List.foldl_cons, hhasPhOff, hcomments, List.any_cons]
      refine ⟨Bool.or_assoc _ _ _, ?_⟩
      rw [Effect.apply, Rule.effect, List.append_assoc, List.filterMap_cons]
      cases r.closure <;> rfl

theorem openings_normal (rules : List Rule) (day : Fin 7) :
    openings (rules.map Rule.normal) day = (openings rules day).map Rule.normal := by
  have hopen (r : Rule) : r.normal.openDays = r.openDays := by
    obtain ⟨selector, hours, ending⟩ := r
    cases selector <;> cases hours <;> rfl
  rw [openings, openings, List.flatMap_map, List.map_flatMap]
  refine List.flatMap_congr fun r _ => ?_
  rw [hopen, List.map_map]
  rfl

/-- `closed` means `off`. -/
theorem meaning_normal (rules : List Rule) : meaning (rules.map Rule.normal) = meaning rules := by
  have hhours (r : Rule) : r.normal.hours.timeRanges = r.hours.timeRanges ∧ r.normal.opensAllDay = r.opensAllDay ∧
      r.normal.closesHolidays = r.closesHolidays ∧ r.normal.closure = r.closure := by
    obtain ⟨selector, hours, ending⟩ := r
    cases selector <;> cases hours <;> exact ⟨rfl, rfl, rfl, rfl⟩
  rw [meaning, meaning]
  congr 1
  · funext day
    rw [openings_normal, List.head?_map, Option.map_map]
    refine congrArg (Option.map · _) (funext fun first => ?_)
    simp only [Function.comp_apply, List.flatMap_map, List.any_map, hhours, DaySchedule.mk.injEq, true_and]
    exact ⟨rfl, List.any_congr rfl fun r => (hhours r).2.1⟩
  · rw [List.any_map]
    exact List.any_congr rfl fun r => (hhours r).2.2.1
  · rw [List.filterMap_map]
    exact List.filterMap_congr fun r _ => (hhours r).2.2.2

/-- The parser reads the rules out of their text. -/
theorem parseOsmHours_eq {rules : List Rule} (h : ∀ r ∈ rules, r.Plain) :
    parseOsmHours cls (text rules) = .ok (meaning rules) := by
  have hfold (rules : List Rule) : rules.foldl (fun parsed r => r.effect.apply parsed) Parsed.empty = meaning rules := by
    obtain ⟨hhasPhOff, hcomments⟩ := foldl_apply rules .empty
    have hschedule : (rules.foldl (fun parsed r => r.effect.apply parsed) Parsed.empty).schedule = (meaning rules).schedule :=
      funext fun day => by
        rw [schedule_foldl, Parsed.empty, foldl_merge_none, List.head?_map, Option.map_map, List.flatMap_map, List.any_map]
        rfl
    have heta (parsed : Parsed) : parsed = ⟨parsed.schedule, parsed.hasPhOff, parsed.comments⟩ := rfl
    rw [heta (rules.foldl _ _), hschedule, hhasPhOff, hcomments]
    rfl
  obtain ⟨hplain, hnormal⟩ := plain_normal h
  rw [parseOsmHours, normalise_text h, ← List.nil_append (semicolonText _),
    splitOn_semicolonText hplain hnormal (List.forall_mem_nil _), hfold, meaning_normal]

theorem mapM_formatTimeRange_text (ranges : List TimeRange) :
    (ranges.map TimeRange.text).mapM (formatTimeRange cls) = .ok (ranges.map TimeRange.shown) := by
  induction ranges with
  | nil => rfl
  | cons t ranges ih =>
      rw [List.map_cons, List.mapM_cons, formatTimeRange_text, ih]
      rfl

theorem formatEntry_meaning {rules : List Rule} {day : Fin 7} {schedule : DaySchedule}
    (h : (meaning rules).schedule day = some schedule) :
    (formatEntry cls day schedule).map some = .ok (dayShown rules day) := by
  obtain ⟨first, hfirst, rfl⟩ := Option.map_eq_some_iff.mp h
  have htimes : ((openings rules day).flatMap fun r => r.hours.timeRanges.map TimeRange.text) =
      ((openings rules day).flatMap fun r => r.hours.timeRanges).map TimeRange.text := List.map_flatMap.symm
  have hempty : (openings rules day).flatMap (fun r => r.hours.timeRanges) = [] →
      (openings rules day).any Rule.opensAllDay = true := by
    intro hnil
    have hmem := List.mem_of_mem_head? hfirst
    refine List.any_eq_true.mpr ⟨first, hmem, ?_⟩
    have hranges := List.flatMap_eq_nil_iff.mp hnil first hmem
    have hopen : first.openDays ≠ [] := by
      obtain ⟨r, _, hr⟩ := List.mem_flatMap.mp hmem
      obtain ⟨d, hd, rfl⟩ := List.mem_map.mp hr
      exact List.ne_nil_of_mem (List.mem_of_mem_filter hd)
    rw [Rule.openDays] at hopen
    rw [Rule.opensAllDay]
    cases hr : first.hours with
    | times firstTime rest withOpen => rw [hr] at hranges; cases hranges
    | openAllDay => rfl
    | off closed =>
        rw [hr] at hopen
        cases hs : first.selector <;> exact absurd (by rw [hs]) hopen
  rw [dayShown, hfirst, Option.map_some, hoursShown, formatEntry, htimes]
  by_cases hnil : (openings rules day).flatMap (fun r => r.hours.timeRanges) = []
  · rw [if_pos hnil, if_pos ⟨hempty hnil, by rw [hnil]; rfl⟩]
    rfl
  · rw [if_neg hnil, if_neg fun hand => hnil (List.map_eq_nil_iff.mp hand.2),
      ← List.map_mergeSort (r := fun a b => decide (a.key ≤ b.key))
        (fun a _ b _ => decide_eq_decide.mpr TimeRange.text_le_iff.symm), mapM_formatTimeRange_text]
    rfl

theorem mapM_formatEntry_meaning (rules : List Rule) (days : List (Fin 7)) :
    (days.filterMap fun day => ((meaning rules).schedule day).map (day, ·)).mapM
      (fun entry => formatEntry cls entry.1 entry.2) = .ok (days.filterMap (dayShown rules)) := by
  induction days with
  | nil => rfl
  | cons day days ih =>
      rw [List.filterMap_cons, List.filterMap_cons]
      cases hday : (meaning rules).schedule day with
      | none =>
          have hnone : dayShown rules day = none := by
            rw [dayShown, Option.map_eq_none_iff]
            exact Option.map_eq_none_iff.mp hday
          rw [hnone]
          exact ih
      | some schedule =>
          have hmeaning := @formatEntry_meaning cls _ _ _ hday
          cases hentry : formatEntry cls day schedule with
          | error e =>
              rw [hentry] at hmeaning
              cases hmeaning
          | ok entry =>
              rw [hentry] at hmeaning
              rw [← Except.ok.inj hmeaning]
              simp only [Option.map_some, List.mapM_cons, hentry, ih]
              rfl

theorem scheduled_meaning_eq_nil_iff {rules : List Rule} :
    (meaning rules).scheduled = [] ↔ (List.finRange 7).filterMap (dayShown rules) = [] := by
  simp only [Parsed.scheduled, List.filterMap_eq_nil_iff, Option.map_eq_none_iff, meaning, dayShown]

theorem formatParsed_meaning (rules : List Rule) : formatParsed cls (meaning rules) = .ok (shown rules) := by
  rw [formatParsed, shown]
  by_cases hnil : (List.finRange 7).filterMap (dayShown rules) = []
  · rw [if_pos (scheduled_meaning_eq_nil_iff.mpr hnil), hnil]
  · rw [if_neg (mt scheduled_meaning_eq_nil_iff.mp hnil), Parsed.scheduled, mapM_formatEntry_meaning]
    obtain ⟨entry, entries, hcons⟩ := List.exists_cons_of_ne_nil hnil
    rw [hcons]
    rfl

end Itou.Insertion.OpeningHours
