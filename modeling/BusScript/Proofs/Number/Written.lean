import BusScript.Proofs.Command.Literal

/-!
# Written numbers are read back

A value written for a field is read as that value: in hexadecimal with as many digits as the field
holds, and as a decimal count of digits alone.
-/

namespace BusScript

namespace Number

/-! ## Hexadecimal digits -/

theorem hexDigit?_hexDigit {letters : LetterCase} {digit : Nat} (below : digit < 16) :
    hexDigit? (hexDigit letters digit) = some digit := by
  have all : ∀ d < 16, hexDigit? (hexDigit .capital d) = some d ∧
      hexDigit? (hexDigit .small d) = some d := by decide
  cases letters with
  | capital => exact (all digit below).1
  | small => exact (all digit below).2

theorem ofHex?_concat {text : List Char} {c : Char} {value digit : Nat}
    (front : ofHex? text = some value) (last : hexDigit? c = some digit) :
    ofHex? (text ++ [c]) = some (value * 16 + digit) := by
  obtain ⟨digits, reads, rfl⟩ := ofHex?_eq_some_iff.mp front
  refine ofHex?_eq_some_iff.mpr ⟨digits ++ [digit], ?_, (ofDigits_concat 16 digits digit).symm⟩
  exact List.rel_append reads (.cons last .nil)

theorem ofHex?_hexDigits (letters : LetterCase) (n : Nat) :
    ofHex? (hexDigits letters n) = some n := by
  fun_induction hexDigits letters n with
  | case1 n below =>
    have read : hexDigit? (hexDigit letters n) = some n := hexDigit?_hexDigit below
    exact ofHex?_eq_some_iff.mpr ⟨[n], .cons read .nil, (Nat.zero_add n).symm⟩
  | case2 n more ih =>
    have last : n % 16 < 16 := Nat.mod_lt n (by decide)
    rw [ofHex?_concat ih (hexDigit?_hexDigit last), Nat.div_add_mod' n 16]

/-- Zeros in front of a number make no difference. -/
theorem ofHex?_zeros (count : Nat) (text : List Char) :
    ofHex? (List.replicate count '0' ++ text) = ofHex? text := by
  induction count with
  | zero => rfl
  | succ count ih =>
    rw [← ih]
    unfold ofHex?
    rw [List.replicate_succ, List.cons_append, List.mapM_cons]
    cases (List.replicate count '0' ++ text).mapM hexDigit? with
    | none => rfl
    | some digits =>
      show some (ofDigits 16 (0 :: digits)) = some (ofDigits 16 digits)
      rfl

theorem length_hexDigits_le {letters : LetterCase} {n count : Nat} (some : 0 < count)
    (below : n < 16 ^ count) : (hexDigits letters n).length ≤ count := by
  induction count generalizing n with
  | zero => cases some
  | succ count ih =>
    unfold hexDigits
    split
    · exact Nat.succ_le_succ (Nat.zero_le count)
    · rename_i more
      rw [Nat.pow_succ] at below
      have front : n / 16 < 16 ^ count := by omega
      have positive : 0 < count := by
        rcases Nat.eq_zero_or_pos count with rfl | positive
        · omega
        · exact positive
      rw [List.length_append, List.length_singleton]
      exact Nat.succ_le_succ (ih positive front)

/-- The digits of a value in a field: the mark, and one digit for every four bits. -/
theorem toList_formatHex {width value : Nat} (some : 0 < width / 4)
    (below : value < 16 ^ (width / 4)) :
    ∃ digits : List Char, (formatHex value width).toList = '0' :: 'x' :: digits ∧
      digits.length = width / 4 ∧ ofHex? digits = .some value := by
  have short : (hexDigits .capital value).length ≤ width / 4 := length_hexDigits_le some below
  refine ⟨List.replicate (width / 4 - (hexDigits .capital value).length) '0' ++
    hexDigits .capital value, ?_, ?_, ?_⟩
  · unfold formatHex paddedHex
    rw [if_neg (by omega), String.toList_ofList]
    rfl
  · rw [List.length_append, List.length_replicate]
    omega
  · rw [ofHex?_zeros, ofHex?_hexDigits]

end Number

open Number

/-! ## Literals -/

theorem underscore_notMem_of_ofHex? {text : List Char} {value : Nat}
    (read : ofHex? text = some value) : '_' ∉ text := by
  intro member
  obtain ⟨digits, reads, -⟩ := ofHex?_eq_some_iff.mp read
  obtain ⟨i, inside, equal⟩ := List.getElem_of_mem member
  have digit := reads.get inside (reads.length_eq ▸ inside)
  rw [List.get_eq_getElem, equal] at digit
  cases digit

/-- A value written for a field of whole digits is read back. -/
theorem parseUnsigned_formatHex {width value : Nat} (some : 0 < width) (whole : width % 4 = 0)
    (below : value < 2 ^ width) : parseUnsigned (formatHex value width) width = .ok value := by
  have bits : width = 4 * (width / 4) := by omega
  have below : value < 16 ^ (width / 4) := by
    rw [bits, Nat.pow_mul] at below
    exact below
  have some : 0 < width / 4 := by omega
  obtain ⟨digits, text, length, read⟩ := toList_formatHex some below
  have kept : hexLiteralDigits (formatHex value width).toList = digits := by
    have plain : ∀ c ∈ digits, (c != '_') = true := by
      intro c member
      rw [bne_iff_ne]
      rintro rfl
      exact underscore_notMem_of_ofHex? read member
    rw [text]
    exact List.filter_eq_self.mpr plain
  refine parseUnsigned_eq_ok_iff.mpr ?_
  rw [kept]
  refine ⟨List.ne_nil_of_length_pos (by omega), ?_, read⟩
  omega

theorem ofDigits_toDigits (n : Nat) :
    ofDigits 10 ((Nat.toDigits 10 n).map fun c => c.toNat - 48) = n := by
  have read := Nat.ofDigitChars_ten_toDigits (n := n)
  rw [Nat.ofDigitChars_eq_foldl] at read
  rw [ofDigits, List.foldl_map]
  simp only [Nat.mul_comm _ 10]
  exact read

theorem isDigit_toString (n : Nat) : (toString n).toList.all Char.isDigit = true := by
  rw [Nat.toString_eq_ofList_toDigits, String.toList_ofList, List.all_eq_true]
  exact fun c member => Nat.isDigit_of_mem_toDigits (by decide) (by decide) member

/-- A count of digits alone is read back. -/
theorem parseCount_toString {n : Nat} (what : String) {maximum : Option Int}
    (short : (toString n).length ≤ digitLimit) (most : ∀ m, maximum = some m → (n : Int) ≤ m) :
    parseCount (toString n) what maximum = .ok n := by
  have some : (toString n).toList.isEmpty = false := by
    rw [Nat.toString_eq_ofList_toDigits, String.toList_ofList, List.isEmpty_eq_false_iff]
    exact Nat.toDigits_ne_nil
  have read : ofDigits 10 ((toString n).toList.map fun c => c.toNat - 48) = n := by
    rw [Nat.toString_eq_ofList_toDigits, String.toList_ofList]
    exact ofDigits_toDigits n
  unfold parseCount
  dsimp only
  rw [some, isDigit_toString, if_neg (by decide), if_neg (by rw [String.length_toList]; omega),
    read]
  cases maximum with
  | none => rfl
  | some m =>
    have fits := most m rfl
    dsimp only
    rw [if_neg (by omega)]

end BusScript
