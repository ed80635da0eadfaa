import Itou.Tokens.Generators

/-!
# Which tokens are accepted

A token that a generator made is read back, and it is accepted for the text that was signed, and for no other.

A signature that repeats the salt and the value in letters that are no dash, as the term that an ideal signature is.
The numbers in base 36 are those of Django.
-/

namespace Itou.Tokens

namespace TokenGenerator

variable {signing : Signing} {generator : TokenGenerator} {timestamp timestamp' : Nat} {value value' : String}

theorem toList_makeTokenWithTimestamp : (generator.makeTokenWithTimestamp signing timestamp value).toList =
    (signing.intToBase36 timestamp).toList ++ '-' :: (signing.hashString generator.keySalt value).toList := by
  simp [makeTokenWithTimestamp]

theorem makeTokenWithTimestamp_ne_empty : generator.makeTokenWithTimestamp signing timestamp value ≠ "" := by
  intro h
  have hlist := congrArg String.toList h
  rw [toList_makeTokenWithTimestamp] at hlist
  simp at hlist

/-- The timestamp is read back. -/
theorem timestamp_makeTokenWithTimestamp (h : timestamp < 36 ^ 13) :
    TokenGenerator.timestamp signing (generator.makeTokenWithTimestamp signing timestamp value) = some timestamp := by
  have hsplit : (generator.makeTokenWithTimestamp signing timestamp value).toList.splitOn '-' =
      [(signing.intToBase36 timestamp).toList, (signing.hashString generator.keySalt value).toList] := by
    rw [toList_makeTokenWithTimestamp, List.splitOn_append_cons_self_of_not_mem (signing.dash_notMem_intToBase36 _),
      List.splitOn_eq_singleton (signing.dash_notMem_hashString _ _)]
  unfold TokenGenerator.timestamp
  rw [hsplit]
  simp only [String.ofList_toList]
  exact signing.base36ToInt_intToBase36 _ h

theorem makeTokenWithTimestamp_inj (h : timestamp < 36 ^ 13) (h' : timestamp' < 36 ^ 13) :
    generator.makeTokenWithTimestamp signing timestamp value =
        generator.makeTokenWithTimestamp signing timestamp' value' ↔ timestamp = timestamp' ∧ value = value' := by
  constructor
  · intro heq
    have htimestamp := congrArg (TokenGenerator.timestamp signing) heq
    rw [timestamp_makeTokenWithTimestamp h, timestamp_makeTokenWithTimestamp h', Option.some.injEq] at htimestamp
    subst htimestamp
    have hhash := (String.append_right_inj _).mp heq
    exact ⟨rfl, (signing.hashString_injective hhash).2⟩
  · rintro ⟨rfl, rfl⟩
    rfl

/-- A token that was made is checked on its timestamp and on its text. -/
theorem checkToken_makeTokenWithTimestamp {now : Instant} {makeHashValue : Nat → Option String}
    (h : timestamp < 36 ^ 13) :
    generator.checkToken signing now makeHashValue (generator.makeTokenWithTimestamp signing timestamp value) =
      (makeHashValue timestamp).map fun value' => value' = value && !generator.isExpired now timestamp := by
  unfold checkToken
  simp only [if_neg makeTokenWithTimestamp_ne_empty, timestamp_makeTokenWithTimestamp h,
    makeTokenWithTimestamp_inj h h, true_and]

/-- What a token that is accepted says. -/
theorem checkToken_eq_some_true {now : Instant} {makeHashValue : Nat → Option String} {token : String}
    (h : generator.checkToken signing now makeHashValue token = some true) :
    ∃ timestamp value, TokenGenerator.timestamp signing token = some timestamp ∧ makeHashValue timestamp = some value ∧
      generator.makeTokenWithTimestamp signing timestamp value = token ∧ generator.isExpired now timestamp = false := by
  unfold checkToken at h
  split at h
  · cases h
  · split at h
    · cases h
    · rename_i timestamp htimestamp
      obtain ⟨value, hvalue, hchecks⟩ := Option.map_eq_some_iff.mp h
      rw [Bool.and_eq_true, decide_eq_true_eq, Bool.not_eq_true'] at hchecks
      exact ⟨timestamp, value, htimestamp, hvalue, hchecks⟩

/-- The check raises exactly where the token has a timestamp and its text cannot be made. -/
theorem checkToken_eq_none {now : Instant} {makeHashValue : Nat → Option String} {token : String} :
    generator.checkToken signing now makeHashValue token = none ↔
      token ≠ "" ∧ ∃ timestamp, TokenGenerator.timestamp signing token = some timestamp ∧ makeHashValue timestamp = none := by
  unfold checkToken
  by_cases hempty : token = ""
  · simp [hempty]
  · cases htimestamp : TokenGenerator.timestamp signing token <;> simp [hempty]

end TokenGenerator

/-! ## Texts -/

theorem append_str_inj {a b : String} {p q : Bool} : a ++ str p = b ++ str q ↔ a = b ∧ p = q := by
  constructor
  · intro h
    have hlist := congrArg (List.reverse ∘ String.toList) h
    cases p <;> cases q <;> simp [str] at hlist
    all_goals exact ⟨String.toList_injective hlist, rfl⟩
  · rintro ⟨rfl, rfl⟩
    rfl

/-- The two numbers of a text of `AdminRequestTokenGenerator` are read as one. -/
theorem adminRequestValue_inj {company company' user user' timestamp : Nat} {isAdmin isAdmin' : Bool} :
    adminRequestValue company user isAdmin timestamp = adminRequestValue company' user' isAdmin' timestamp ↔
      toString company ++ toString user = toString company' ++ toString user' ∧ isAdmin = isAdmin' := by
  rw [adminRequestValue, adminRequestValue, String.append_left_inj, append_str_inj]

theorem companySignupHashValue_inj {company company' members members' timestamp : Nat} :
    companySignupHashValue company members timestamp = companySignupHashValue company' members' timestamp ↔
      toString company ++ toString members = toString company' ++ toString members' := by
  rw [companySignupHashValue, companySignupHashValue, Option.some.injEq, String.append_left_inj]

namespace Symbolic

/-! ## Base 36 -/

def charSet : List Char := "0123456789abcdefghijklmnopqrstuvwxyz".toList

def charOf (digit : Nat) : Char := charSet.getD digit '0'

def digitOf (c : Char) : Option Nat := charSet.idxOf? c

/-- The digits of a number that has at most `width` of them. -/
def digits : Nat → Nat → List Char
  | 0, _ => []
  | width + 1, n => if n < 36 then [charOf n] else digits width (n / 36) ++ [charOf (n % 36)]

def valueOf (text : List Char) : Option Nat :=
  text.foldlM (fun value c => (digitOf c).map (36 * value + ·)) 0

theorem digitOf_charOf : ∀ n, n < 36 → digitOf (charOf n) = some n := by decide

theorem charOf_ne_dash : ∀ n, n < 36 → charOf n ≠ '-' := by decide

theorem length_digits_le (width n : Nat) : (digits width n).length ≤ width := by
  induction width generalizing n with
  | zero => exact Nat.le_refl _
  | succ width ih =>
      unfold digits
      split
      · simp
      · simpa using ih (n / 36)

theorem dash_notMem_digits (width n : Nat) : '-' ∉ digits width n := by
  induction width generalizing n with
  | zero => exact List.not_mem_nil
  | succ width ih =>
      unfold digits
      split
      · rename_i hlt
        simpa using (charOf_ne_dash n hlt).symm
      · have hlast := (charOf_ne_dash (n % 36) (Nat.mod_lt _ (by decide))).symm
        simpa [ih (n / 36)] using hlast

theorem valueOf_digits (width n : Nat) (h : n < 36 ^ (width + 1)) : valueOf (digits (width + 1) n) = some n := by
  induction width generalizing n with
  | zero =>
      rw [digits, if_pos (by omega)]
      simp [valueOf, digitOf_charOf n (by omega)]
  | succ width ih =>
      rw [digits]
      split
      · rename_i hlt
        simp [valueOf, digitOf_charOf n hlt]
      · have hdiv : n / 36 < 36 ^ (width + 1) := Nat.div_lt_of_lt_mul (by rw [Nat.pow_succ] at h; omega)
        have hfirst := ih (n / 36) hdiv
        unfold valueOf at hfirst ⊢
        rw [List.foldlM_append, hfirst]
        have hdigit := digitOf_charOf (n % 36) (Nat.mod_lt _ (by decide))
        simp [hdigit, Nat.div_add_mod]

/-! ## Signatures -/

/-- Two letters for each letter, none of which is a dash. -/
def spell (text : List Char) : List Char := text.flatMap fun c => if c = '-' then ['d', 'd'] else ['c', c]

theorem dash_notMem_spell (text : List Char) : '-' ∉ spell text := by
  intro h
  obtain ⟨c, -, h⟩ := List.mem_flatMap.mp h
  split at h
  · simp at h
  · rename_i hne
    simp [Ne.symm hne] at h

theorem spell_inj {a a' b b' : List Char} (h : spell a ++ 's' :: b = spell a' ++ 's' :: b') : a = a' ∧ b = b' := by
  induction a generalizing a' with
  | nil =>
      cases a' with
      | nil => simpa [spell] using h
      | cons c a' =>
          simp only [spell, List.flatMap_cons, List.flatMap_nil] at h
          split at h <;> simp at h
  | cons c a ih =>
      cases a' with
      | nil =>
          simp only [spell, List.flatMap_cons, List.flatMap_nil] at h
          split at h <;> simp at h
      | cons c' a' =>
          simp only [spell, List.flatMap_cons, List.append_assoc] at h
          split at h <;> split at h <;> simp at h
          · rename_i hc hc'
            obtain ⟨rfl, hb⟩ := ih h
            exact ⟨by rw [hc, hc'], hb⟩
          · obtain ⟨rfl, htail⟩ := h
            obtain ⟨rfl, hb⟩ := ih htail
            exact ⟨rfl, hb⟩

/-- A signature is its salt and its value. -/
def signing : Signing where
  intToBase36 n := String.ofList (digits 13 n)
  base36ToInt text := if text.length ≤ 13 then valueOf text.toList else none
  hashString salt value := String.ofList (spell salt.toList ++ 's' :: spell value.toList)
  base36ToInt_intToBase36 n hn := by
    rw [if_pos (by simpa using length_digits_le 13 n), String.toList_ofList]
    exact valueOf_digits 12 n hn
  dash_notMem_intToBase36 n := by
    rw [String.toList_ofList]
    exact dash_notMem_digits 13 n
  dash_notMem_hashString salt value := by
    simp [dash_notMem_spell]
  hashString_injective {salt salt' value value'} h := by
    obtain ⟨hsalt, hvalue⟩ := spell_inj (String.ofList_injective h)
    have hend : spell value.toList ++ 's' :: [] = spell value'.toList ++ 's' :: [] := by rw [hvalue]
    exact ⟨String.toList_injective hsalt, String.toList_injective (spell_inj hend).1⟩

end Symbolic

end Itou.Tokens
