import Itou.Lib.Decimal
import Itou.Lib.Json
import Mathlib.Data.List.Forall2

/-!
# JSON texts

What `json.dumps` writes of a value: in ASCII, with `, ` and `: ` between the parts. A reader of these texts takes its value
at the beginning of a text and gives the rest back.
-/

namespace Itou.Lib

universe u v

/-! ## Readers -/

/-- What reads a value at the beginning of a text. -/
abbrev Reader (α : Type u) := List Char → Option (α × List Char)

namespace Reader

variable {α : Type u} {β : Type v}

def map (f : α → β) (p : Reader α) : Reader β := fun text => (p text).map (Prod.map f id)

/-- What follows is read according to what `p` reads. -/
def bind (p : Reader α) (f : α → Reader β) : Reader β := fun text => (p text).bind fun r => f r.1 r.2

/-- A text, then what `p` reads. -/
def after (expected : List Char) (p : Reader α) : Reader α := fun text => (expected.isPrefixOf? text).bind p

def const (x : α) : Reader α := fun text => some (x, text)

/-- What `p` reads again and again, up to a character, at most so many times. -/
def upTo (close : Char) (p : Reader α) : Nat → Reader (List α)
  | 0, _ => none
  | n + 1, text =>
      if text.head? = some close then some ([], text.tail)
      else (p text).bind fun r => (upTo close p n r.2).map (Prod.map (r.1 :: ·) id)

/-- The length of the text bounds the number of readings. -/
def many (close : Char) (p : Reader α) : Reader (List α) := fun text => upTo close p text.length text

/-- What `p` reads, with `, ` between two of them, up to a character. -/
def listOf (close : Char) (p : Reader α) : Reader (List α) := fun text =>
  if text.head? = some close then some ([], text.tail)
  else (p text).bind fun r => (many close (after [',', ' '] p) r.2).map (Prod.map (r.1 :: ·) id)

/-- `p` reads `x` in a text, whatever follows, if `next` accepts the first character of it. -/
def Reads (next : Option Char → Prop) (p : Reader α) (text : List Char) (x : α) : Prop :=
  ∀ rest : List Char, next rest.head? → p (text ++ rest) = some (x, rest)

variable {next : Option Char → Prop} {p : Reader α} {text : List Char} {texts : List (List Char)} {x : α}
  {xs : List α} {close : Char} {n : Nat}

theorem Reads.map (h : Reads next p text x) (f : α → β) : Reads next (p.map f) text (f x) := by
  intro rest hrest
  rw [Reader.map, h rest hrest]
  rfl

theorem Reads.bind {f : α → Reader β} {text' : List Char} {y : β} (h : Reads (fun _ => True) p text x)
    (hf : Reads next (f x) text' y) : Reads next (p.bind f) (text ++ text') y := by
  intro rest hrest
  rw [Reader.bind, List.append_assoc, h _ trivial, Option.bind_some, hf rest hrest]

theorem Reads.after (h : Reads next p text x) (expected : List Char) :
    Reads next (p.after expected) (expected ++ text) x := by
  intro rest hrest
  have hexpected : expected.isPrefixOf? (expected ++ (text ++ rest)) = some (text ++ rest) :=
    List.isPrefixOf?_eq_some_iff_append_eq.mpr rfl
  rw [Reader.after, List.append_assoc, hexpected, Option.bind_some, h rest hrest]

/-- The text is not empty, and it may follow what is read before it. -/
def Follows (next : Option Char → Prop) (close : Char) (text : List Char) : Prop :=
  ∃ c, text.head? = some c ∧ c ≠ close ∧ next (some c)

theorem Follows.head?_append (h : Follows next close text) (rest : List Char) :
    (text ++ rest).head? ≠ some close ∧ next (text ++ rest).head? := by
  obtain ⟨c, hc, hne, hnext⟩ := h
  rw [List.head?_append, hc, Option.some_or]
  exact ⟨fun heq => hne (Option.some.inj heq), hnext⟩

theorem Follows.length_pos (h : Follows next close text) : 0 < text.length := by
  obtain ⟨c, hc, -⟩ := h
  exact List.length_pos_of_mem (List.mem_of_mem_head? hc)

theorem reads_upTo (h : List.Forall₂ (Reads next p) texts xs) (hfollows : ∀ t ∈ texts, Follows next close t)
    (hclose : next (some close)) (hn : texts.length < n) :
    Reads (fun _ => True) (upTo close p n) (texts.flatten ++ [close]) xs := by
  intro rest _
  induction h generalizing n with
  | nil =>
      obtain ⟨n, rfl⟩ := Nat.exists_eq_add_one_of_ne_zero (Nat.ne_of_gt hn)
      exact if_pos rfl
  | @cons t x ts xs hread _ ih =>
      obtain ⟨n, rfl⟩ := Nat.exists_eq_add_one_of_ne_zero (Nat.ne_zero_of_lt hn)
      have htail := ih (fun t ht => hfollows t (List.mem_cons_of_mem _ ht)) (Nat.lt_of_succ_lt_succ hn)
      have hnext : next (ts.flatten ++ [close] ++ rest).head? := by
        cases ts with
        | nil => exact hclose
        | cons t' ts =>
            rw [List.flatten_cons, List.append_assoc, List.append_assoc]
            exact ((hfollows t' (List.mem_cons_of_mem _ List.mem_cons_self)).head?_append _).2
      have hne := ((hfollows t List.mem_cons_self).head?_append (ts.flatten ++ [close] ++ rest)).1
      rw [List.flatten_cons, List.append_assoc, List.append_assoc, ← List.append_assoc ts.flatten, upTo, if_neg hne,
        hread _ hnext, Option.bind_some, htail]
      rfl

theorem length_le_length_flatten (h : ∀ t ∈ texts, Follows next close t) : texts.length ≤ texts.flatten.length := by
  induction texts with
  | nil => exact Nat.le_refl 0
  | cons t ts ih =>
      have hhead := (h t List.mem_cons_self).length_pos
      have htail := ih fun t ht => h t (List.mem_cons_of_mem _ ht)
      rw [List.flatten_cons, List.length_append, List.length_cons]
      omega

theorem reads_many (h : List.Forall₂ (Reads next p) texts xs) (hfollows : ∀ t ∈ texts, Follows next close t)
    (hclose : next (some close)) :
    Reads (fun _ => True) (many close p) (texts.flatten ++ [close]) xs := by
  intro rest hrest
  refine reads_upTo h hfollows hclose ?_ rest hrest
  have hlength := length_le_length_flatten hfollows
  simp only [List.length_append, List.length_singleton]
  omega

theorem intercalate_cons (sep t : List Char) (ts : List (List Char)) :
    sep.intercalate (t :: ts) = t ++ (ts.map fun t => sep ++ t).flatten := by
  induction ts generalizing t with
  | nil => rw [List.intercalate_singleton, List.map_nil, List.flatten_nil, List.append_nil]
  | cons t' ts ih =>
      rw [List.intercalate_cons_cons, ih, List.map_cons, List.flatten_cons, List.append_assoc, List.append_assoc]

theorem length_le_of_mem (ht : text ∈ texts) (sep : List Char) : text.length ≤ (sep.intercalate texts).length := by
  cases texts with
  | nil => exact absurd ht List.not_mem_nil
  | cons t ts =>
      rw [intercalate_cons, List.length_append]
      rcases List.mem_cons.mp ht with rfl | ht
      · exact Nat.le_add_right _ _
      · have hle := (List.sublist_flatten_of_mem (List.mem_map_of_mem (f := fun t => sep ++ t) ht)).length_le
        rw [List.length_append] at hle
        omega

theorem reads_listOf (h : List.Forall₂ (Reads next p) texts xs)
    (hfollows : ∀ t ∈ texts, Follows (fun _ => True) close t) (hne : ',' ≠ close) (hcomma : next (some ','))
    (hclose : next (some close)) :
    Reads (fun _ => True) (listOf close p) ([',', ' '].intercalate texts ++ [close]) xs := by
  intro rest hrest
  cases h with
  | nil => exact if_pos rfl
  | @cons t x ts xs hread hreads =>
      have hseparated : ∀ t ∈ ts.map fun t => [',', ' '] ++ t, Follows next close t := by
        intro t ht
        obtain ⟨t, -, rfl⟩ := List.mem_map.mp ht
        exact ⟨',', rfl, hne, hcomma⟩
      have htail := reads_many (List.forall₂_map_left_iff.mpr (hreads.imp fun _ _ h => h.after [',', ' '])) hseparated hclose
        rest hrest
      have hhead := ((hfollows t List.mem_cons_self).head?_append
        ((ts.map fun t => [',', ' '] ++ t).flatten ++ [close] ++ rest)).1
      have hnext : next ((ts.map fun t => [',', ' '] ++ t).flatten ++ [close] ++ rest).head? := by
        cases ts with
        | nil => exact hclose
        | cons t' ts => exact hcomma
      rw [intercalate_cons, List.append_assoc, List.append_assoc, ← List.append_assoc _ [close], listOf, if_neg hhead,
        hread _ hnext, Option.bind_some, htail]
      rfl

end Reader

/-! ## What `json.dumps` writes -/

namespace JsonValue

/-- `ESCAPE_DCT`. -/
def escapes : List (Char × Char) :=
  [('\\', '\\'), ('"', '"'), ('\x08', 'b'), ('\x0c', 'f'), ('\n', 'n'), ('\r', 'r'), ('\t', 't')]

/-- `f"{n:04x}"`, of a number below 65536. -/
def hexText (n : Nat) : List Char := [n / 4096, n / 256 % 16, n / 16 % 16, n % 16].map Nat.digitChar

def charText (c : Char) : List Char :=
  match escapes.find? fun e => e.1 = c with
  | some e => ['\\', e.2]
  | none =>
      if ' ' ≤ c ∧ c ≤ '~' then [c]
      else if c.toNat < 0x10000 then ['\\', 'u'] ++ hexText c.toNat
      else
        ['\\', 'u'] ++ hexText (0xd800 + (c.toNat - 0x10000) / 0x400) ++
          (['\\', 'u'] ++ hexText (0xdc00 + (c.toNat - 0x10000) % 0x400))

def stringText (s : String) : List Char := '"' :: ((s.toList.map charText).flatten ++ ['"'])

def intText (n : Int) : List Char :=
  if n < 0 then '-' :: Nat.toDigits 10 n.natAbs else Nat.toDigits 10 n.natAbs

def listText (close : Char) (texts : List (List Char)) : List Char := [',', ' '].intercalate texts ++ [close]

mutual
def dumps : JsonValue Int → List Char
  | null => ['n', 'u', 'l', 'l']
  | bool true => ['t', 'r', 'u', 'e']
  | bool false => ['f', 'a', 'l', 's', 'e']
  | number n => intText n
  | string s => stringText s
  | array items => '[' :: listText ']' (dumpsList items)
  | object fields => '{' :: listText '}' (dumpsFields fields)

def dumpsList : List (JsonValue Int) → List (List Char)
  | [] => []
  | item :: items => dumps item :: dumpsList items

def dumpsFields : List (String × JsonValue Int) → List (List Char)
  | [] => []
  | field :: fields => (stringText field.1 ++ ([':', ' '] ++ dumps field.2)) :: dumpsFields fields
end

/-! ## What reads it -/

def hexValue (c : Char) : Option Nat := ((List.range 16).map Nat.digitChar).idxOf? c

def hex : Reader Nat
  | a :: b :: c :: d :: text =>
      (hexValue a).bind fun a => (hexValue b).bind fun b => (hexValue c).bind fun c => (hexValue d).map fun d =>
        (4096 * a + 256 * b + 16 * c + d, text)
  | _ => none

/-- One character outside the first plane is two numbers. -/
def codePoint : Reader Char :=
  hex.bind fun n =>
    if 0xd800 ≤ n ∧ n < 0xdc00 then
      Reader.after ['\\', 'u'] (hex.map fun low => Char.ofNat (0x10000 + (n - 0xd800) * 0x400 + (low - 0xdc00)))
    else Reader.const (Char.ofNat n)

def char : Reader Char
  | [] => none
  | c :: text =>
      if c = '\\' then
        if text.head? = some 'u' then codePoint text.tail
        else text.head?.bind fun e => (escapes.find? fun escape => escape.2 = e).map fun escape => (escape.1, text.tail)
      else if ' ' ≤ c then some (c, text)
      else none

def chars : Reader String := Reader.map String.ofList (Reader.many '"' char)

def digits : Reader Nat := fun text =>
  (parseInt (text.takeWhile Char.isDigit)).map fun n => (n, text.dropWhile Char.isDigit)

def int : Reader Int := fun text =>
  if text.head? = some '-' then Reader.map (fun n : Nat => -(n : Int)) digits text.tail
  else Reader.map Int.ofNat digits text

/-- A key and its value, which `p` reads. -/
def field (p : Reader (JsonValue Int)) : Reader (String × JsonValue Int) :=
  Reader.after ['"'] (chars.bind fun key => Reader.after [':', ' '] (p.map (Prod.mk key)))

/-- A value that is not deeper than `n`. -/
def value : Nat → Reader (JsonValue Int)
  | 0, _ => none
  | n + 1, text =>
      if text.head? = some 'n' then Reader.after ['n', 'u', 'l', 'l'] (Reader.const null) text
      else if text.head? = some 't' then Reader.after ['t', 'r', 'u', 'e'] (Reader.const (bool true)) text
      else if text.head? = some 'f' then Reader.after ['f', 'a', 'l', 's', 'e'] (Reader.const (bool false)) text
      else if text.head? = some '"' then (chars.map string) text.tail
      else if text.head? = some '[' then ((Reader.listOf ']' (value n)).map array) text.tail
      else if text.head? = some '{' then
        ((Reader.listOf '}' (field (value n))).map object) text.tail
      else (int.map number) text

def loads (text : List Char) : Option (JsonValue Int) :=
  (value text.length text).bind fun r => if r.2.isEmpty then some r.1 else none

/-! ## Characters -/

theorem hexValue_digitChar : ∀ d < 16, hexValue d.digitChar = some d := by decide

theorem reads_hex {n : Nat} (hn : n < 0x10000) : Reader.Reads (fun _ => True) hex (hexText n) n := by
  intro rest _
  have h₁ := hexValue_digitChar (n / 4096) (by omega)
  have h₂ := hexValue_digitChar (n / 256 % 16) (Nat.mod_lt _ (by decide))
  have h₃ := hexValue_digitChar (n / 16 % 16) (Nat.mod_lt _ (by decide))
  have h₄ := hexValue_digitChar (n % 16) (Nat.mod_lt _ (by decide))
  have hvalue : 4096 * (n / 4096) + 256 * (n / 256 % 16) + 16 * (n / 16 % 16) + n % 16 = n := by omega
  simp only [hexText, List.map_cons, List.map_nil, List.cons_append, List.nil_append, hex, h₁, h₂, h₃, h₄,
    Option.bind_some, Option.map_some, hvalue]

theorem escape_of_mem {e : Char × Char} (he : e ∈ escapes) :
    e.2 ≠ 'u' ∧ (escapes.find? fun escape => escape.2 = e.2) = some e := by
  simp only [escapes, List.mem_cons, List.not_mem_nil, or_false] at he
  rcases he with rfl | rfl | rfl | rfl | rfl | rfl | rfl <;> exact ⟨by decide, rfl⟩

theorem charText_cases (c : Char) :
    (∃ e ∈ escapes, e.1 = c ∧ charText c = ['\\', e.2]) ∨
      (c ≠ '\\' ∧ c ≠ '"' ∧ ' ' ≤ c ∧ charText c = [c]) ∨
      (c.toNat < 0x10000 ∧ charText c = ['\\', 'u'] ++ hexText c.toNat) ∨
      (0x10000 ≤ c.toNat ∧ charText c = ['\\', 'u'] ++ hexText (0xd800 + (c.toNat - 0x10000) / 0x400) ++
        (['\\', 'u'] ++ hexText (0xdc00 + (c.toNat - 0x10000) % 0x400))) := by
  rw [charText]
  cases hfind : escapes.find? fun e => e.1 = c with
  | some e => exact .inl ⟨e, List.mem_of_find?_eq_some hfind, by simpa using List.find?_some hfind, rfl⟩
  | none =>
      have hne : ∀ e ∈ escapes, e.1 ≠ c := by simpa using hfind
      by_cases hprintable : ' ' ≤ c ∧ c ≤ '~'
      · have hbackslash := hne ('\\', '\\') List.mem_cons_self
        have hquote := hne ('"', '"') (List.mem_cons_of_mem _ List.mem_cons_self)
        exact .inr (.inl ⟨hbackslash.symm, hquote.symm, hprintable.1, if_pos hprintable⟩)
      · simp only [if_neg hprintable]
        by_cases hplane : c.toNat < 0x10000
        · exact .inr (.inr (.inl ⟨hplane, if_pos hplane⟩))
        · exact .inr (.inr (.inr ⟨Nat.le_of_not_lt hplane, if_neg hplane⟩))

theorem reads_codePoint {n : Nat} (hn : n < 0x10000) (hsurrogate : ¬ (0xd800 ≤ n ∧ n < 0xdc00)) :
    Reader.Reads (fun _ => True) codePoint (hexText n) (Char.ofNat n) := by
  intro rest _
  rw [codePoint, Reader.bind, reads_hex hn rest trivial, Option.bind_some, if_neg hsurrogate, Reader.const]

theorem reads_codePoint_surrogates {n : Nat} (hlow : 0x10000 ≤ n) (hhigh : n < 0x110000) :
    Reader.Reads (fun _ => True) codePoint (hexText (0xd800 + (n - 0x10000) / 0x400) ++
      (['\\', 'u'] ++ hexText (0xdc00 + (n - 0x10000) % 0x400))) (Char.ofNat n) := by
  have hfirst : 0xd800 ≤ 0xd800 + (n - 0x10000) / 0x400 ∧ 0xd800 + (n - 0x10000) / 0x400 < 0xdc00 := by omega
  have hsecond : 0xdc00 + (n - 0x10000) % 0x400 < 0x10000 := by omega
  have hvalue : 0x10000 + (0xd800 + (n - 0x10000) / 0x400 - 0xd800) * 0x400 +
      (0xdc00 + (n - 0x10000) % 0x400 - 0xdc00) = n := by omega
  refine (reads_hex (Nat.lt_trans hfirst.2 (by decide))).bind ?_
  rw [if_pos hfirst]
  have hlast := ((reads_hex hsecond).map fun low =>
    Char.ofNat (0x10000 + (0xd800 + (n - 0x10000) / 0x400 - 0xd800) * 0x400 + (low - 0xdc00))).after ['\\', 'u']
  rwa [hvalue] at hlast

theorem reads_char (c : Char) : Reader.Reads (fun _ => True) char (charText c) c := by
  intro rest _
  rcases charText_cases c with ⟨e, he, rfl, htext⟩ | ⟨hbackslash, -, hle, htext⟩ | ⟨hlt, htext⟩ | ⟨hle, htext⟩
  · obtain ⟨hne, hfind⟩ := escape_of_mem he
    have hhead : ¬ some e.2 = some 'u' := fun heq => hne (Option.some.inj heq)
    simp only [htext, List.cons_append, List.nil_append, char, if_true, List.head?_cons, if_neg hhead, List.tail_cons,
      Option.bind_some, hfind, Option.map_some]
  · simp only [htext, List.cons_append, List.nil_append, char, if_neg hbackslash, if_pos hle]
  · have hvalid := c.valid
    have hsurrogate : ¬ (0xd800 ≤ c.toNat ∧ c.toNat < 0xdc00) := by
      rcases hvalid with h | h
      · exact fun hs => absurd (Nat.lt_of_lt_of_le h hs.1) (Nat.lt_irrefl _)
      · exact fun hs => absurd (Nat.lt_trans hs.2 (Nat.lt_trans (by decide) h.1)) (Nat.lt_irrefl _)
    simp only [htext, List.cons_append, List.nil_append, char, if_true, List.head?_cons, List.tail_cons,
      reads_codePoint hlt hsurrogate rest trivial, Char.ofNat_toNat]
  · have hhigh : c.toNat < 0x110000 := by
      rcases c.valid with h | h
      · exact Nat.lt_trans h (by decide)
      · exact h.2
    have htail := reads_codePoint_surrogates hle hhigh rest trivial
    rw [Char.ofNat_toNat] at htail
    simp only [htext, List.append_assoc, List.cons_append, List.nil_append, char, if_true, List.head?_cons,
      List.tail_cons] at htail ⊢
    exact htail

theorem follows_charText (c : Char) : Reader.Follows (fun _ => True) '"' (charText c) := by
  rcases charText_cases c with ⟨e, -, -, htext⟩ | ⟨-, hquote, -, htext⟩ | ⟨-, htext⟩ | ⟨-, htext⟩ <;> rw [htext]
  · exact ⟨'\\', rfl, by decide, trivial⟩
  · exact ⟨c, rfl, hquote, trivial⟩
  · exact ⟨'\\', rfl, by decide, trivial⟩
  · exact ⟨'\\', rfl, by decide, trivial⟩

theorem reads_chars (s : String) :
    Reader.Reads (fun _ => True) chars ((s.toList.map charText).flatten ++ ['"']) s := by
  have hreads : List.Forall₂ (Reader.Reads (fun _ => True) char) (s.toList.map charText) s.toList :=
    List.forall₂_map_left_iff.mpr (List.forall₂_same.mpr fun c _ => reads_char c)
  have hfollows : ∀ t ∈ s.toList.map charText, Reader.Follows (fun _ => True) '"' t := by
    intro t ht
    obtain ⟨c, -, rfl⟩ := List.mem_map.mp ht
    exact follows_charText c
  have hchars := (Reader.reads_many hreads hfollows trivial).map String.ofList
  rwa [String.ofList_toList] at hchars

/-! ## Numbers -/

/-- What follows a number. -/
def NoDigit (next : Option Char) : Prop := ∀ c ∈ next, c.isDigit = false

theorem reads_digits (n : Nat) : Reader.Reads NoDigit digits (Nat.toDigits 10 n) n := by
  intro rest hrest
  have hdigits : ∀ c ∈ Nat.toDigits 10 n, c.isDigit = true := fun c hc =>
    Nat.isDigit_of_mem_toDigits (by decide) (by decide) hc
  have htake : rest.takeWhile Char.isDigit = [] := by
    cases rest with
    | nil => rfl
    | cons c rest => rw [List.takeWhile_cons, hrest c rfl]; rfl
  have hdrop : rest.dropWhile Char.isDigit = rest := by
    cases rest with
    | nil => rfl
    | cons c rest => rw [List.dropWhile_cons, hrest c rfl]; rfl
  have hparse : parseInt (Nat.toDigits 10 n) = some n := by
    rw [parseInt, if_pos ⟨Nat.toDigits_ne_nil, List.all_eq_true.mpr hdigits⟩, valueOf, Nat.ofDigitChars_ten_toDigits]
  rw [digits, List.takeWhile_append_of_pos hdigits, List.dropWhile_append_of_pos hdigits, htake, hdrop,
    List.append_nil, hparse, Option.map_some]

theorem head_toDigits (n : Nat) : ∃ c, (Nat.toDigits 10 n).head? = some c ∧ c.isDigit = true := by
  have hne : Nat.toDigits 10 n ≠ [] := Nat.toDigits_ne_nil
  refine ⟨_, List.head?_eq_some_head hne, ?_⟩
  exact Nat.isDigit_of_mem_toDigits (by decide) (by decide) (List.head_mem hne)

theorem reads_int (n : Int) : Reader.Reads NoDigit int (intText n) n := by
  intro rest hrest
  by_cases hn : n < 0
  · have hvalue : -(n.natAbs : Int) = n := by omega
    simp only [intText, if_pos hn, List.cons_append, int, List.head?_cons, if_true, List.tail_cons,
      ((reads_digits n.natAbs).map fun n : Nat => -(n : Int)) rest hrest, hvalue]
  · obtain ⟨c, hc, hdigit⟩ := head_toDigits n.natAbs
    have hhead : ¬ (Nat.toDigits 10 n.natAbs ++ rest).head? = some '-' := by
      rw [List.head?_append, hc, Option.some_or, Option.some.injEq]
      rintro rfl
      exact absurd hdigit (by decide)
    have hvalue : Int.ofNat n.natAbs = n := Int.natAbs_of_nonneg (Int.not_lt.mp hn)
    rw [intText, if_neg hn, int, if_neg hhead, ((reads_digits n.natAbs).map Int.ofNat) rest hrest, hvalue]

theorem head_intText (n : Int) : ∃ c, (intText n).head? = some c ∧ (c = '-' ∨ c.isDigit = true) := by
  by_cases hn : n < 0
  · exact ⟨'-', by rw [intText, if_pos hn, List.head?_cons], .inl rfl⟩
  · obtain ⟨c, hc, hdigit⟩ := head_toDigits n.natAbs
    exact ⟨c, by rw [intText, if_neg hn, hc], .inr hdigit⟩

/-! ## Values -/

/-- No text of a value closes the list that it is in. -/
theorem follows_dumps (j : JsonValue Int) : Reader.Follows (fun _ => True) ']' (dumps j) := by
  cases j with
  | null => exact ⟨'n', rfl, by decide, trivial⟩
  | bool b => cases b <;> exact ⟨_, rfl, by decide, trivial⟩
  | number n =>
      obtain ⟨c, hc, hnumber⟩ := head_intText n
      refine ⟨c, hc, ?_, trivial⟩
      rintro rfl
      exact absurd hnumber (by decide)
  | string s => exact ⟨'"', rfl, by decide, trivial⟩
  | array items => exact ⟨'[', rfl, by decide, trivial⟩
  | object fields => exact ⟨'{', rfl, by decide, trivial⟩

theorem follows_dumpsList {items : List (JsonValue Int)} :
    ∀ t ∈ dumpsList items, Reader.Follows (fun _ => True) ']' t := by
  induction items with
  | nil => exact fun t ht => absurd ht List.not_mem_nil
  | cons item items ih => exact List.forall_mem_cons.mpr ⟨follows_dumps item, ih⟩

theorem follows_dumpsFields {fields : List (String × JsonValue Int)} :
    ∀ t ∈ dumpsFields fields, Reader.Follows (fun _ => True) '}' t := by
  induction fields with
  | nil => exact fun t ht => absurd ht List.not_mem_nil
  | cons field fields ih => exact List.forall_mem_cons.mpr ⟨⟨'"', rfl, by decide, trivial⟩, ih⟩

theorem reads_field {p : Reader (JsonValue Int)} {text : List Char} {j : JsonValue Int} (key : String)
    (h : Reader.Reads NoDigit p text j) :
    Reader.Reads NoDigit (field p) (stringText key ++ ([':', ' '] ++ text)) (key, j) :=
  ((reads_chars key).bind (f := fun key => Reader.after [':', ' '] (p.map (Prod.mk key)))
    ((h.map (Prod.mk key)).after [':', ' '])).after ['"']

theorem length_le_of_listText {opening close : Char} {texts : List (List Char)} {n : Nat}
    (h : (opening :: listText close texts).length ≤ n + 1) : ∀ t ∈ texts, t.length ≤ n := by
  intro t ht
  have hle := Reader.length_le_of_mem ht [',', ' ']
  rw [listText, List.length_cons, List.length_append] at h
  omega

theorem reads_listText {α : Type} {p : Reader α} {close : Char} {texts : List (List Char)} {xs : List α}
    (h : List.Forall₂ (Reader.Reads NoDigit p) texts xs)
    (hfollows : ∀ t ∈ texts, Reader.Follows (fun _ => True) close t) (hclose : close = ']' ∨ close = '}') :
    Reader.Reads (fun _ => True) (Reader.listOf close p) (listText close texts) xs := by
  have hnext : NoDigit (some close) ∧ ',' ≠ close := by
    rcases hclose with rfl | rfl <;> exact ⟨by rintro c ⟨⟩; decide, by decide⟩
  exact Reader.reads_listOf h hfollows hnext.2 (by rintro c ⟨⟩; decide) hnext.1

theorem value_number {n : Nat} {text : List Char} {c : Char} (hc : text.head? = some c)
    (hnumber : c = '-' ∨ c.isDigit = true) :
    value (n + 1) text = int.map number text := by
  have hne : ∀ d ∈ ['n', 't', 'f', '"', '[', '{'], ¬ text.head? = some d := by
    intro d hd heq
    obtain rfl : c = d := Option.some.inj (hc.symm.trans heq)
    simp only [List.mem_cons, List.not_mem_nil, or_false] at hd
    rcases hd with rfl | rfl | rfl | rfl | rfl | rfl <;> exact absurd hnumber (by decide)
  simp only [List.forall_mem_cons] at hne
  obtain ⟨h₁, h₂, h₃, h₄, h₅, h₆, -⟩ := hne
  rw [value, if_neg h₁, if_neg h₂, if_neg h₃, if_neg h₄, if_neg h₅, if_neg h₆]

mutual
/-- The length of a text bounds its depth: the parts of a list are shorter than its text. -/
theorem reads_value : (j : JsonValue Int) → {n : Nat} → (dumps j).length ≤ n → Reader.Reads NoDigit (value n) (dumps j) j
  | j, 0, h => absurd (follows_dumps j).length_pos (Nat.not_lt.mpr h)
  | null, _ + 1, _ => fun _ _ => rfl
  | bool true, _ + 1, _ => fun _ _ => rfl
  | bool false, _ + 1, _ => fun _ _ => rfl
  | number m, _ + 1, _ => by
      intro rest hrest
      obtain ⟨c, hc, hnumber⟩ := head_intText m
      have hhead : (intText m ++ rest).head? = some c := by rw [List.head?_append, hc, Option.some_or]
      rw [dumps, value_number hhead hnumber]
      exact ((reads_int m).map number) rest hrest
  | string s, _ + 1, _ => fun rest _ => ((reads_chars s).map string) rest trivial
  | array items, n + 1, h => by
      have hlength := length_le_of_listText h
      have hitems := reads_listText (reads_values items hlength) follows_dumpsList (.inl rfl)
      exact fun rest _ => (hitems.map array) rest trivial
  | object fields, n + 1, h => by
      have hlength := length_le_of_listText h
      have hfields := reads_listText (reads_fields fields hlength) follows_dumpsFields (.inr rfl)
      exact fun rest _ => (hfields.map object) rest trivial

theorem reads_values : (items : List (JsonValue Int)) → {n : Nat} → (∀ t ∈ dumpsList items, t.length ≤ n) →
    List.Forall₂ (Reader.Reads NoDigit (value n)) (dumpsList items) items
  | [], _, _ => .nil
  | item :: items, _, h =>
      .cons (reads_value item (h _ List.mem_cons_self)) (reads_values items fun t ht => h t (List.mem_cons_of_mem _ ht))

theorem reads_fields : (fields : List (String × JsonValue Int)) → {n : Nat} →
    (∀ t ∈ dumpsFields fields, t.length ≤ n) →
    List.Forall₂ (Reader.Reads NoDigit (field (value n))) (dumpsFields fields) fields
  | [], _, _ => .nil
  | (key, j) :: fields, n, h => by
      have hlength := h _ List.mem_cons_self
      simp only [List.length_append] at hlength
      refine .cons (reads_field key (reads_value j ?_)) (reads_fields fields fun t ht => h t (List.mem_cons_of_mem _ ht))
      omega
end

/-- Every value is read back from its text. -/
theorem loads_of_dumps (j : JsonValue Int) : loads (dumps j) = some j := by
  have hvalue := reads_value j (Nat.le_refl _) [] fun c hc => absurd hc (Option.not_mem_none c)
  rw [List.append_nil] at hvalue
  rw [loads, hvalue]
  rfl

end JsonValue

end Itou.Lib
