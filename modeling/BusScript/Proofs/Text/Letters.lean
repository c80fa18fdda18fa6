import Mathlib.Data.List.Basic
import BusScript.Command.Literal
import BusScript.Command.Parameter
import BusScript.Text.Blank

/-!
# Letters of either case

Texts that differ in the case of ASCII letters only are one text in small letters. Keywords, burst
lengths and the digits of a number are looked for in a way that makes no difference between a text
and its small letters, and neither does white space.
-/

namespace BusScript

namespace Text

/-! ## Characters -/

/-- A relation of every character to itself, and of each capital to its small letter, relates every
character to its small letter. -/
theorem small_cases {P : Char → Char → Prop} (other : ∀ c, P c c)
    (letter : ∀ n < 26, P (Char.ofNat (65 + n)) (small (Char.ofNat (65 + n)))) (c : Char) :
    P c (small c) := by
  by_cases range : 'A' ≤ c ∧ c ≤ 'Z'
  · obtain ⟨low, high⟩ := range
    simp only [Char.le_def, UInt32.le_iff_toNat_le] at low high
    have low : 65 ≤ c.toNat := low
    have high : c.toNat ≤ 90 := high
    have place : 65 + (c.toNat - 65) = c.toNat := by omega
    have found := letter (c.toNat - 65) (by omega)
    rwa [place, Char.ofNat_toNat] at found
  · rw [small, if_neg range]
    exact other c

theorem capitals_small (c : Char) : capitals (small c) = capitals c :=
  small_cases (P := fun c d => capitals d = capitals c) (fun _ => rfl) (by decide) c

theorem isDigit_small (c : Char) : (small c).isDigit = c.isDigit :=
  small_cases (P := fun c d => d.isDigit = c.isDigit) (fun _ => rfl) (by decide) c

theorem hexDigit?_small (c : Char) : Number.hexDigit? (small c) = Number.hexDigit? c :=
  small_cases (P := fun c d => Number.hexDigit? d = Number.hexDigit? c) (fun _ => rfl) (by decide) c

theorem small_ne_underscore (c : Char) : (small c != '_') = (c != '_') :=
  small_cases (P := fun c d => (d != '_') = (c != '_')) (fun _ => rfl) (by decide) c

theorem small_eq_zero_iff (c : Char) : small c = '0' ↔ c = '0' :=
  small_cases (P := fun c d => d = '0' ↔ c = '0') (fun _ => Iff.rfl) (by decide) c

theorem small_ne_capitalX (c : Char) : small c ≠ 'X' := by
  by_cases capital : c = 'X'
  · rw [capital]
    decide
  · exact small_cases (P := fun c d => c ≠ 'X' → d ≠ 'X') (fun _ => id) (by decide) c capital

theorem small_eq_x_iff (c : Char) : small c = 'x' ↔ c = 'x' ∨ c = 'X' := by
  by_cases capital : c = 'X'
  · rw [capital]
    decide
  · exact small_cases (P := fun c d => c ≠ 'X' → (d = 'x' ↔ c = 'x' ∨ c = 'X'))
      (fun c other => by simp [other]) (by decide) c capital

/-- No digit is a letter. -/
theorem small_of_isDigit {c : Char} (digit : c.isDigit = true) : small c = c :=
  small_cases (P := fun c d => c.isDigit = true → d = c) (fun _ _ => rfl) (by decide) c digit

/-! ## Tokens -/

/-- A token in small letters. -/
def lower (token : String) : String :=
  String.ofList (token.toList.map small)

@[simp] theorem toList_lower (token : String) : (lower token).toList = token.toList.map small :=
  String.toList_ofList

/-- The tokens differ in the case of letters at most. -/
def SameLetters (token other : String) : Prop :=
  lower token = lower other

instance (token other : String) : Decidable (SameLetters token other) :=
  inferInstanceAs (Decidable (_ = _))

theorem map_lower_eq {tokens others : List String}
    (letters : List.Forall₂ SameLetters tokens others) :
    tokens.map lower = others.map lower := by
  induction letters with
  | nil => rfl
  | cons same _ ih => rw [List.map_cons, List.map_cons, same, ih]

theorem capitalize_lower (token : String) :
    capitalize (lower token).toList = capitalize token.toList := by
  rw [toList_lower, capitalize, capitalize, List.flatMap_map]
  exact congrArg (token.toList.flatMap ·) (funext capitals_small)

theorem isDigit_lower (token : String) :
    (lower token).toList.all Char.isDigit = token.toList.all Char.isDigit := by
  rw [toList_lower, List.all_map]
  exact congrArg (token.toList.all ·) (funext isDigit_small)

theorem lower_of_isDigit {token : String} (digits : token.toList.all Char.isDigit = true) :
    lower token = token := by
  rw [List.all_eq_true] at digits
  have same : token.toList.map small = token.toList.map id :=
    List.map_congr_left fun c member => small_of_isDigit (digits c member)
  rw [lower, same, List.map_id, String.ofList_toList]

end Text

open Text

/-! ## Keywords and lengths -/

@[simp] theorem named?_lower {α : Type} (all : List α) (name : α → String) (token : String) :
    named? all name (lower token) = named? all name token := by
  unfold named?
  rw [capitalize_lower]

@[simp] theorem looksLikeLength_lower (token : String) :
    looksLikeLength (lower token) = looksLikeLength token := by
  unfold looksLikeLength
  rw [toList_lower]
  cases token.toList with
  | nil => rfl
  | cons c rest => simp only [List.map_cons, isDigit_small, List.length_map]

/-! ## Digits -/

/-- A text of two characters or more has a mark in front of its digits, or none. -/
theorem hexLiteralDigits_cons (c d : Char) (rest : List Char) :
    hexLiteralDigits (c :: d :: rest) =
      (if c = '0' ∧ (d = 'x' ∨ d = 'X') then rest else c :: d :: rest).filter (· != '_') := by
  by_cases marked : c = '0' ∧ (d = 'x' ∨ d = 'X')
  · rw [if_pos marked]
    obtain ⟨rfl, rfl | rfl⟩ := marked
    · rfl
    · rfl
  · rw [if_neg marked]
    unfold hexLiteralDigits
    split
    · rename_i equal
      cases equal
      exact absurd ⟨rfl, .inl rfl⟩ marked
    · rename_i equal
      cases equal
      exact absurd ⟨rfl, .inr rfl⟩ marked
    · rfl

theorem hexLiteralDigits_singleton (c : Char) :
    hexLiteralDigits [c] = [c].filter (· != '_') := by
  unfold hexLiteralDigits
  split
  · rename_i equal
    cases equal
  · rename_i equal
    cases equal
  · rfl

theorem filter_underscore_small (digits : List Char) :
    (digits.map small).filter (· != '_') = (digits.filter (· != '_')).map small := by
  rw [List.filter_map]
  exact congrArg (fun keep => (digits.filter keep).map small) (funext small_ne_underscore)

theorem hexLiteralDigits_lower (token : String) :
    hexLiteralDigits (lower token).toList = (hexLiteralDigits token.toList).map small := by
  rw [toList_lower]
  rcases token.toList with - | ⟨c, - | ⟨d, rest⟩⟩
  · rfl
  · rw [List.map_singleton, hexLiteralDigits_singleton, hexLiteralDigits_singleton]
    exact filter_underscore_small [c]
  · rw [List.map_cons, List.map_cons, hexLiteralDigits_cons, hexLiteralDigits_cons]
    simp only [small_eq_zero_iff, small_eq_x_iff, small_ne_capitalX, or_false]
    split
    · exact filter_underscore_small rest
    · exact filter_underscore_small (c :: d :: rest)

theorem ofHex?_small (digits : List Char) :
    Number.ofHex? (digits.map small) = Number.ofHex? digits := by
  unfold Number.ofHex?
  rw [List.mapM_map]
  exact congrArg (fun read => (digits.mapM read).map (Number.ofDigits 16))
    (funext hexDigit?_small)

end BusScript
