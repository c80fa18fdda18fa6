import Mathlib.Order.Interval.Set.Defs
import BusScript.Proofs.Number.Spelled
import BusScript.Proofs.Number.Written

/-!
# Hexadecimal literals

A literal is its digits, behind one mark and with underscores anywhere among them
(`literalDigits`). It is read for a field exactly if it has some digits, no more than the field
holds, and nothing else, and then as the number they spell; nothing is ever cut off
(`parseUnsigned_exact`). Among the literals of a number there is one that is written out in full,
and that is how the number is shown (`formatHex_canonical`).
-/

namespace BusScript

open Number

/-! ## Reading -/

/-- The digits of a literal: what is left of it without one `0x` or `0X` in front, and then without
underscores. -/
def literalDigits (text : List Char) : List Char :=
  (if ['0', 'x'] <+: text ∨ ['0', 'X'] <+: text then text.drop 2 else text).filter (· != '_')

/-- Digits that a field holds: at least one, one for every four bits at most, and all of them
hexadecimal. -/
structure FitsField (width : ℕ) (digits : List Char) : Prop where
  positive : 1 ≤ digits.length
  short : digits.length ≤ width / 4
  hexadecimal : ∀ c ∈ digits, IsHexDigit c

theorem hexLiteralDigits_eq (text : List Char) : hexLiteralDigits text = literalDigits text := by
  unfold hexLiteralDigits literalDigits
  dsimp only
  split
  · rw [if_pos (.inl ⟨_, rfl⟩)]
    rfl
  · rw [if_pos (.inr ⟨_, rfl⟩)]
    rfl
  · rename_i other capital
    have bare : ¬(['0', 'x'] <+: text ∨ ['0', 'X'] <+: text) := by
      rintro (⟨rest, rfl⟩ | ⟨rest, rfl⟩)
      · exact other rest rfl
      · exact capital rest rfl
    rw [if_neg bare]

theorem parseUnsigned_eq_ok_iff_fits {text : String} {width value : ℕ} :
    parseUnsigned text width = .ok value ↔
      FitsField width (literalDigits text.toList) ∧
        value = hexNumber (literalDigits text.toList) := by
  rw [parseUnsigned_eq_ok_iff, hexLiteralDigits_eq, ofHex?_eq_some_iff_spelled]
  constructor
  · rintro ⟨some, short, hexadecimal, rfl⟩
    exact ⟨⟨List.length_pos_of_ne_nil some, by omega, hexadecimal⟩, rfl⟩
  · rintro ⟨fits, rfl⟩
    have some := List.ne_nil_of_length_pos fits.positive
    have short := fits.short
    exact ⟨some, by omega, fits.hexadecimal, rfl⟩

/-- Too many digits are a fault of their own, whatever characters they are. -/
theorem parseUnsigned_of_not_fits {text : String} {width : ℕ}
    (misfit : ¬FitsField width (literalDigits text.toList)) :
    parseUnsigned text width = .error
      (if width / 4 < (literalDigits text.toList).length then .tooWide width text
        else .malformedHex text) := by
  unfold parseUnsigned
  dsimp only
  rw [hexLiteralDigits_eq]
  generalize literalDigits text.toList = digits at misfit ⊢
  split
  · rename_i empty
    rw [List.isEmpty_iff.mp empty, List.length_nil, if_neg (Nat.not_lt_zero _)]
  · rename_i some
    split
    · rw [if_pos (by omega)]
    · rename_i short
      rw [if_neg (by omega)]
      cases read : ofHex? digits with
      | none => rfl
      | some value =>
        have hexadecimal := (ofHex?_eq_some_iff_spelled.mp read).1
        have positive := List.length_pos_of_ne_nil fun none => some (List.isEmpty_iff.mpr none)
        exact absurd ⟨positive, by omega, hexadecimal⟩ misfit

theorem FitsField.hexNumber_lt {width : ℕ} {digits : List Char} (fits : FitsField width digits) :
    hexNumber digits < 2 ^ width := by
  have read : ofHex? digits = some (hexNumber digits) :=
    ofHex?_eq_some_iff_spelled.mpr ⟨fits.hexadecimal, rfl⟩
  have short : (digits.length : Int) ≤ (width : Int) / 4 := by
    have held := fits.short
    omega
  exact ofHex?_lt_of_fits short read

/-- A literal is read for a field exactly if its digits fit, and then as the number they spell, of
which the field cuts nothing off. Any other literal is refused whole, with a reason of its own where
it has more digits than the field. -/
theorem parseUnsigned_exact (text : String) (width : ℕ) :
    let digits := literalDigits text.toList
    (∀ value : ℕ, parseUnsigned text width = .ok value ↔
      FitsField width digits ∧ value = hexNumber digits) ∧
    (FitsField width digits →
      hexNumber digits < 2 ^ width ∧
        hexNumber digits &&& (2 ^ width - 1) = hexNumber digits) ∧
    (¬FitsField width digits → ∃ cause, parseUnsigned text width = .error cause ∧
      cause.kind = .value ∧ cause.token? = some text ∧
      cause.reason = if width / 4 < digits.length then s!"value exceeds {width}-bit width"
        else "malformed hex literal") := by
  intro digits
  refine ⟨fun value => parseUnsigned_eq_ok_iff_fits, fun fits => ?_, fun misfit => ?_⟩
  · have below := fits.hexNumber_lt
    rw [Nat.and_two_pow_sub_one_eq_mod, Nat.mod_eq_of_lt below]
    exact ⟨below, rfl⟩
  · refine ⟨_, parseUnsigned_of_not_fits misfit, ?_⟩
    by_cases wide : width / 4 < digits.length
    · rw [if_pos wide, if_pos wide]
      exact ⟨rfl, rfl, rfl⟩
    · rw [if_neg wide, if_neg wide]
      exact ⟨rfl, rfl, rfl⟩

/-! ## Writing -/

/-- A literal written out in full for a field of so many digits: `0x` and capital digits. -/
structure IsWrittenOut (count : ℕ) (text : String) : Prop where
  mark : text.toList.take 2 = ['0', 'x']
  length : (text.toList.drop 2).length = count
  capital : ∀ c ∈ text.toList.drop 2, c ∈ capitalAlphabet

theorem isWrittenOut_formatHex {width value : ℕ} (some : 0 < width / 4)
    (below : value < 16 ^ (width / 4)) : IsWrittenOut (width / 4) (formatHex value width) := by
  have text : (formatHex value width).toList =
      '0' :: 'x' :: (List.replicate (width / 4 - (hexDigits .capital value).length) '0' ++
        hexDigits .capital value) := by
    unfold formatHex paddedHex
    rw [if_neg (by omega), String.toList_ofList]
    rfl
  refine ⟨?_, ?_, ?_⟩
  · rw [text]
    rfl
  · have short : (hexDigits .capital value).length ≤ width / 4 := length_hexDigits_le some below
    rw [text, List.drop_succ_cons, List.drop_succ_cons, List.drop_zero, List.length_append,
      List.length_replicate]
    omega
  · intro c member
    rw [text] at member
    rcases List.mem_append.mp member with padding | digit
    · rw [List.eq_of_mem_replicate padding]
      decide
    · exact capital_of_mem_hexDigits digit

/-- The digits of a literal that is written out in full stand behind its mark. -/
theorem IsWrittenOut.literalDigits_eq {count : ℕ} {text : String} (out : IsWrittenOut count text) :
    literalDigits text.toList = text.toList.drop 2 := by
  have whole : ['0', 'x'] <+: text.toList := by
    rw [← out.mark]
    exact List.take_prefix 2 _
  have plain : capitalAlphabet.all (· != '_') := by decide
  rw [literalDigits, if_pos (.inl whole)]
  exact List.filter_eq_self.mpr fun c member =>
    List.all_eq_true.mp plain c (out.capital c member)

/-- Literals of one value that are written out in full are one literal. -/
theorem IsWrittenOut.eq_of_parseUnsigned {count width value : ℕ} {text other : String}
    (out : IsWrittenOut count text) (full : IsWrittenOut count other)
    (read : parseUnsigned text width = .ok value) (same : parseUnsigned other width = .ok value) :
    text = other := by
  have one := (parseUnsigned_eq_ok_iff_fits.mp read).2
  have two := (parseUnsigned_eq_ok_iff_fits.mp same).2
  rw [out.literalDigits_eq] at one
  rw [full.literalDigits_eq] at two
  have digits : text.toList.drop 2 = other.toList.drop 2 :=
    eq_of_hexNumber_eq out.capital full.capital (out.length.trans full.length.symm)
      (one.symm.trans two)
  rw [← String.toList_inj, ← List.take_append_drop 2 text.toList, out.mark, digits, ← full.mark,
    List.take_append_drop]

/-- A number of a field of whole digits is shown as the one literal written out in full that reads
as it. So different numbers are shown differently, and literals read alike exactly if what they read
as is shown alike. -/
theorem formatHex_canonical {width : ℕ} (some : 0 < width) (whole : 4 ∣ width) :
    (∀ value < 2 ^ width, ∀ text,
      IsWrittenOut (width / 4) text ∧ parseUnsigned text width = .ok value ↔
        text = formatHex value width) ∧
    Set.InjOn (fun value : ℕ => formatHex value width) (Set.Iio (2 ^ width)) ∧
    ∀ text other (value another : ℕ), parseUnsigned text width = .ok value →
      parseUnsigned other width = .ok another →
        (value = another ↔ formatHex value width = formatHex another width) := by
  have digits : 0 < width / 4 := Nat.div_pos (Nat.le_of_dvd some whole) (by decide)
  have shown {value : ℕ} (below : value < 2 ^ width) :
      IsWrittenOut (width / 4) (formatHex value width) ∧
        parseUnsigned (formatHex value width) width = .ok value := by
    refine ⟨isWrittenOut_formatHex digits ?_, ?_⟩
    · rwa [← Nat.mul_div_cancel' whole, Nat.pow_mul] at below
    · exact parseUnsigned_formatHex some (Nat.mod_eq_zero_of_dvd whole) below
  have injective : Set.InjOn (fun value : ℕ => formatHex value width) (Set.Iio (2 ^ width)) := by
    intro value below another small equal
    have read := (shown below).2
    have equal : formatHex value width = formatHex another width := equal
    rw [equal, (shown small).2] at read
    exact (Except.ok.inj read).symm
  refine ⟨fun value below text => ⟨?_, ?_⟩, injective, ?_⟩
  · rintro ⟨out, read⟩
    exact out.eq_of_parseUnsigned (shown below).1 read (shown below).2
  · rintro rfl
    exact shown below
  · intro text other value another read same
    constructor
    · exact fun equal => equal ▸ rfl
    · exact fun equal => injective (parseUnsigned_lt read) (parseUnsigned_lt same) equal

/-- `0x0A5` is the one literal of 165 written out for a field of twelve bits. `0Xa_5` is another
literal of it, and 166 is shown differently. -/
theorem formatHex_canonical_of_three_digits :
    (∀ text, IsWrittenOut 3 text ∧ parseUnsigned text (12 : ℕ) = .ok 165 ↔ text = "0x0A5") ∧
      parseUnsigned "0Xa_5" (12 : ℕ) = .ok 165 ∧
      formatHex (165 : ℕ) (12 : ℕ) ≠ formatHex (166 : ℕ) (12 : ℕ) := by
  obtain ⟨canonical, injective, -⟩ := @formatHex_canonical 12 (by decide) (by decide)
  have shown : formatHex (165 : ℕ) (12 : ℕ) = "0x0A5" := by
    simp [formatHex, paddedHex, hexDigits, hexDigit]
  refine ⟨fun text => shown ▸ canonical 165 (by decide) text, by decide, fun equal => ?_⟩
  have wrong : 165 = 166 := injective (by decide) (by decide) equal
  cases wrong

end BusScript
