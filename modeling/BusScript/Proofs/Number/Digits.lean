import Mathlib.Algebra.Group.Nat.Defs
import Mathlib.Data.List.Forall2
import Mathlib.Data.List.Induction
import BusScript.Number.Hex

/-!
# Values of digits

Digits below a base spell a number below the base to their count. Hexadecimal digits are below
sixteen, so a hexadecimal text spells a number that its length bounds.
-/

namespace BusScript.Number

@[simp] theorem ofDigits_nil (base : Nat) : ofDigits base [] = 0 := rfl

/-- The last digit is the lowest. -/
theorem ofDigits_concat (base : Nat) (digits : List Nat) (digit : Nat) :
    ofDigits base (digits ++ [digit]) = ofDigits base digits * base + digit := by
  simp only [ofDigits, List.foldl_append, List.foldl_cons, List.foldl_nil]

theorem ofDigits_lt {base : Nat} {digits : List Nat} (below : ∀ digit ∈ digits, digit < base) :
    ofDigits base digits < base ^ digits.length := by
  -- The recursion of `ofDigits` is at the end of the list.
  induction digits using List.reverseRecOn with
  | nil => simp
  | append_singleton digits digit ih =>
    have front : ofDigits base digits < base ^ digits.length :=
      ih fun d member => below d (List.mem_append_left _ member)
    have last : digit < base := below digit (by simp)
    rw [ofDigits_concat, List.length_append, List.length_singleton, Nat.pow_succ]
    calc ofDigits base digits * base + digit
        < ofDigits base digits * base + base := by omega
      _ = (ofDigits base digits + 1) * base := by rw [Nat.add_mul, Nat.one_mul]
      _ ≤ base ^ digits.length * base := Nat.mul_le_mul_right _ front

/-- No digit comes behind the small letters that are digits. -/
theorem toNat_lt_of_hexDigit? {c : Char} {digit : Nat} (read : hexDigit? c = some digit) :
    c.toNat < 103 := by
  unfold hexDigit? at read
  simp only [Char.le_def, UInt32.le_iff_toNat_le] at read
  have code : c.toNat = c.val.toNat := rfl
  split at read
  · rename_i range
    have upper : c.val.toNat ≤ 57 := range.2
    omega
  · split at read
    · rename_i range
      have upper : c.val.toNat ≤ 102 := range.2
      omega
    · split at read
      · rename_i range
        have upper : c.val.toNat ≤ 70 := range.2
        omega
      · cases read

/-- What holds of every digit among the characters in front of `g` holds of every digit. -/
theorem hexDigit?_cases {P : Char → Nat → Prop}
    (table : ∀ n < 103, ∀ digit ∈ hexDigit? (Char.ofNat n), P (Char.ofNat n) digit) {c : Char}
    {digit : Nat} (read : hexDigit? c = some digit) : P c digit := by
  have found := table c.toNat (toNat_lt_of_hexDigit? read)
  rw [Char.ofNat_toNat] at found
  exact found digit read

theorem hexDigit?_lt {c : Char} {digit : Nat} (read : hexDigit? c = some digit) : digit < 16 :=
  hexDigit?_cases (P := fun _ digit => digit < 16) (by decide) read

/-- A hexadecimal text spells a number if each character is a digit, and then their digits make
it. -/
theorem ofHex?_eq_some_iff {text : List Char} {value : Nat} :
    ofHex? text = some value ↔
      ∃ digits, List.Forall₂ (fun c digit => hexDigit? c = some digit) text digits ∧
        value = ofDigits 16 digits := by
  have digitwise : ∀ digits, text.mapM hexDigit? = some digits ↔
      List.Forall₂ (fun c digit => hexDigit? c = some digit) text digits := by
    induction text with
    | nil => intro digits; cases digits <;> simp
    | cons c text ih =>
      intro digits
      rw [List.mapM_cons, List.forall₂_cons_left_iff]
      simp only [bind, pure, Option.bind_eq_some_iff, Option.some.injEq, ih]
      constructor
      · rintro ⟨digit, read, rest, reads, rfl⟩
        exact ⟨digit, rest, read, reads, rfl⟩
      · rintro ⟨digit, rest, read, reads, rfl⟩
        exact ⟨digit, read, rest, reads, rfl⟩
  unfold ofHex?
  simp only [Option.map_eq_some_iff, digitwise]
  exact exists_congr fun digits => and_congr_right fun _ => eq_comm

/-- The value of a hexadecimal text is bounded by its length. -/
theorem ofHex?_lt {text : List Char} {value : Nat} (read : ofHex? text = some value) :
    value < 16 ^ text.length := by
  obtain ⟨digits, reads, rfl⟩ := ofHex?_eq_some_iff.mp read
  rw [reads.length_eq]
  apply ofDigits_lt
  intro digit member
  obtain ⟨i, inside, rfl⟩ := List.getElem_of_mem member
  exact hexDigit?_lt (reads.get (reads.length_eq ▸ inside) inside)

end BusScript.Number
