import BusScript.Command.Literal
import BusScript.Proofs.Number.Digits

/-!
# What literals give

A hexadecimal literal of a field never gives a value beyond the field (`parseUnsigned_lt`). A
decimal count gives a natural, a script error, or the fault of too many digits, and the last exactly
for the texts of `IsOverlong` (`parseCount_eq_countTooLong_iff`).
-/

namespace BusScript

/-! ## Hexadecimal words -/

/-- Digits that a field holds, four bits each, spell a number that the bits of the field hold. -/
theorem ofHex?_lt_of_fits {digits : List Char} {width : Int} {value : Nat}
    (fits : (digits.length : Int) ≤ width / 4) (read : Number.ofHex? digits = some value) :
    value < 2 ^ width.toNat := by
  have count : 4 * digits.length ≤ width.toNat := by omega
  calc value
      < 16 ^ digits.length := Number.ofHex?_lt read
    _ = 2 ^ (4 * digits.length) := by rw [Nat.pow_mul]
    _ ≤ 2 ^ width.toNat := Nat.pow_le_pow_right (by decide) count

theorem parseUnsigned_eq_ok_iff {text : String} {width : Int} {value : Nat} :
    parseUnsigned text width = .ok value ↔
      hexLiteralDigits text.toList ≠ [] ∧
        ((hexLiteralDigits text.toList).length : Int) ≤ width / 4 ∧
        Number.ofHex? (hexLiteralDigits text.toList) = some value := by
  unfold parseUnsigned
  dsimp only
  split
  · rename_i empty
    simp [List.isEmpty_iff.mp empty]
  · rename_i digits
    split
    · rename_i wide
      simp only [reduceCtorEq, false_iff]
      rintro ⟨-, fits, -⟩
      omega
    · rename_i fits
      split
      · rename_i n read
        have whole : n &&& ((1 <<< width.toNat) - 1) = n := by
          have below : n < 2 ^ width.toNat := ofHex?_lt_of_fits (by omega) read
          rw [Nat.one_shiftLeft, Nat.and_two_pow_sub_one_eq_mod, Nat.mod_eq_of_lt below]
        simp only [Except.ok.injEq, whole, read, Option.some.injEq]
        constructor
        · rintro rfl
          exact ⟨fun none => digits (List.isEmpty_iff.mpr none), by omega, rfl⟩
        · exact fun ⟨_, _, equal⟩ => equal
      · rename_i bad
        simp [bad]

/-- A literal has no more digits than its field holds, so its value fits. -/
theorem parseUnsigned_lt {text : String} {width value : Nat}
    (read : parseUnsigned text width = .ok value) : value < 2 ^ width := by
  obtain ⟨-, fits, digits⟩ := parseUnsigned_eq_ok_iff.mp read
  exact ofHex?_lt_of_fits fits digits

/-! ## Decimal counts -/

/-- A decimal count of more digits than are read. -/
def IsOverlong (text : String) : Prop :=
  text.toList.all Char.isDigit = true ∧ Number.digitLimit < text.toList.length

instance (text : String) : Decidable (IsOverlong text) :=
  inferInstanceAs (Decidable (_ ∧ _))

theorem parseCount_eq_countTooLong_iff {text what : String} {maximum : Option Int} {digits : Nat} :
    parseCount text what maximum = .error (.countTooLong digits) ↔
      IsOverlong text ∧ digits = text.toList.length := by
  unfold parseCount IsOverlong
  dsimp only
  split
  · rename_i malformed
    simp only [CommandFault.ofCause, Except.error.injEq, reduceCtorEq, false_iff]
    rintro ⟨⟨decimal, long⟩, -⟩
    have empty : text.toList = [] := by simpa [decimal] using malformed
    simp [empty] at long
  · rename_i decimal
    simp only [Bool.or_eq_true, Bool.not_eq_true', not_or, Bool.not_eq_false] at decimal
    split
    · rename_i long
      simp only [Except.error.injEq, CommandFault.countTooLong.injEq, decimal.2, long, and_self,
        true_and]
      exact eq_comm
    · rename_i short
      simp only [short, and_false, false_and, iff_false]
      intro equal
      split at equal
      · split at equal <;> cases equal
      · cases equal

/-- A count below a maximum. -/
theorem parseCount_le {text what : String} {maximum : Int} {count : Nat}
    (read : parseCount text what (some maximum) = .ok count) : (count : Int) ≤ maximum := by
  unfold parseCount at read
  dsimp only at read
  split at read
  · cases read
  · split at read
    · cases read
    · split at read
      · cases read
      · rename_i most
        cases read
        omega

end BusScript
