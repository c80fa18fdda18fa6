import Mathlib.Data.Nat.Digits.Defs
import BusScript.Proofs.Number.Digits

/-!
# What hexadecimal texts spell

A text of hexadecimal digits stands for the number whose digits to the base sixteen they are
(`hexNumber`). It is read exactly if it has no other characters, and then as that number
(`ofHex?_eq_some_iff_spelled`). Texts of one length in capital digits are told apart by their
numbers, and numbers are written in capital digits alone.
-/

namespace BusScript.Number

/-! ## Digits -/

/-- The digits to the base sixteen, each at the place of its value. -/
def hexAlphabet : List Char := "0123456789abcdef".toList

/-- The same digits with their letters as capitals. -/
def capitalAlphabet : List Char := "0123456789ABCDEF".toList

/-- A hexadecimal digit with a letter of either case. -/
def IsHexDigit (c : Char) : Prop :=
  c ∈ hexAlphabet ∨ c ∈ capitalAlphabet

instance (c : Char) : Decidable (IsHexDigit c) :=
  inferInstanceAs (Decidable (_ ∨ _))

/-- The value of a hexadecimal digit. -/
def hexValue (c : Char) : ℕ :=
  hexAlphabet.idxOf c.toLower

/-- The number whose digits to the base sixteen a text lists, the highest first. -/
def hexNumber (text : List Char) : ℕ :=
  Nat.ofDigits 16 (text.map hexValue).reverse

theorem hexDigit?_of_isHexDigit {c : Char} (digit : IsHexDigit c) :
    hexDigit? c = some (hexValue c) := by
  have small : hexAlphabet.all fun c => hexDigit? c == some (hexValue c) := by decide
  have capital : capitalAlphabet.all fun c => hexDigit? c == some (hexValue c) := by decide
  rcases digit with member | member
  · exact beq_iff_eq.mp (List.all_eq_true.mp small c member)
  · exact beq_iff_eq.mp (List.all_eq_true.mp capital c member)

theorem isHexDigit_of_hexDigit? {c : Char} {digit : ℕ} (read : hexDigit? c = some digit) :
    IsHexDigit c :=
  hexDigit?_cases (P := fun c _ => IsHexDigit c) (by decide) read

theorem hexDigit?_eq_some_iff {c : Char} {digit : ℕ} :
    hexDigit? c = some digit ↔ IsHexDigit c ∧ hexValue c = digit := by
  constructor
  · intro read
    have member := isHexDigit_of_hexDigit? read
    rw [hexDigit?_of_isHexDigit member] at read
    exact ⟨member, Option.some.inj read⟩
  · rintro ⟨member, rfl⟩
    exact hexDigit?_of_isHexDigit member

theorem hexValue_lt {c : Char} (digit : IsHexDigit c) : hexValue c < 16 :=
  hexDigit?_lt (hexDigit?_of_isHexDigit digit)

/-! ## Numbers -/

theorem ofDigits_eq (base : ℕ) (digits : List ℕ) :
    ofDigits base digits = Nat.ofDigits base digits.reverse := by
  -- The recursion of `ofDigits` is at the end of the list, where the reversed list begins.
  induction digits using List.reverseRecOn with
  | nil => rfl
  | append_singleton digits digit ih =>
    rw [ofDigits_concat, ih, List.reverse_append, List.reverse_singleton, List.singleton_append,
      Nat.ofDigits_cons, Nat.mul_comm, Nat.add_comm]

/-- A text is read if all of it are hexadecimal digits, and then as the number that they spell. -/
theorem ofHex?_eq_some_iff_spelled {text : List Char} {value : ℕ} :
    ofHex? text = some value ↔ (∀ c ∈ text, IsHexDigit c) ∧ value = hexNumber text := by
  have spelled (digits : List ℕ) :
      List.Forall₂ (fun c digit => hexDigit? c = some digit) text digits ↔
        (∀ c ∈ text, IsHexDigit c) ∧ text.map hexValue = digits := by
    simp only [hexDigit?_eq_some_iff, List.forall₂_and_left]
    rw [← List.forall₂_map_left_iff (R := Eq), List.forall₂_eq_eq_eq]
  rw [ofHex?_eq_some_iff]
  constructor
  · rintro ⟨digits, reads, rfl⟩
    obtain ⟨all, rfl⟩ := (spelled digits).mp reads
    exact ⟨all, ofDigits_eq 16 _⟩
  · rintro ⟨all, rfl⟩
    exact ⟨text.map hexValue, (spelled _).mpr ⟨all, rfl⟩, (ofDigits_eq 16 _).symm⟩

/-! ## Capital digits -/

theorem map_hexDigit_hexValue {text : List Char} (capital : ∀ c ∈ text, c ∈ capitalAlphabet) :
    (text.map hexValue).map (hexDigit .capital) = text := by
  have back : capitalAlphabet.all fun c => hexDigit .capital (hexValue c) == c := by decide
  rw [List.map_map]
  calc text.map (hexDigit .capital ∘ hexValue)
    _ = text.map id := List.map_congr_left fun c member =>
      beq_iff_eq.mp (List.all_eq_true.mp back c (capital c member))
    _ = text := List.map_id text

/-- Texts of one length in capital digits that spell one number are one text. -/
theorem eq_of_hexNumber_eq {text other : List Char} (capital : ∀ c ∈ text, c ∈ capitalAlphabet)
    (capitals : ∀ c ∈ other, c ∈ capitalAlphabet) (length : text.length = other.length)
    (equal : hexNumber text = hexNumber other) : text = other := by
  have below {digits : List Char} (all : ∀ c ∈ digits, c ∈ capitalAlphabet) :
      ∀ digit ∈ (digits.map hexValue).reverse, digit < 16 := by
    intro digit member
    rw [List.mem_reverse] at member
    obtain ⟨c, inside, rfl⟩ := List.mem_map.mp member
    exact hexValue_lt (.inr (all c inside))
  have values : (text.map hexValue).reverse = (other.map hexValue).reverse := by
    apply Nat.ofDigits_inj_of_len_eq (by decide) _ (below capital) (below capitals) equal
    simp only [List.length_reverse, List.length_map, length]
  rw [← map_hexDigit_hexValue capital, ← map_hexDigit_hexValue capitals, List.reverse_inj.mp values]

theorem hexDigit_mem_capitalAlphabet {digit : ℕ} (below : digit < 16) :
    hexDigit .capital digit ∈ capitalAlphabet := by
  have all : ∀ d < 16, hexDigit .capital d ∈ capitalAlphabet := by decide
  exact all digit below

theorem capital_of_mem_hexDigits {n : ℕ} {c : Char} (member : c ∈ hexDigits .capital n) :
    c ∈ capitalAlphabet := by
  fun_induction hexDigits .capital n with
  | case1 n below =>
    rw [List.mem_singleton.mp member]
    exact hexDigit_mem_capitalAlphabet below
  | case2 n more ih =>
    rcases List.mem_append.mp member with front | last
    · exact ih front
    · rw [List.mem_singleton.mp last]
      exact hexDigit_mem_capitalAlphabet (Nat.mod_lt n (by decide))

end BusScript.Number
