import BusScript.Text.Utf8

/-!
# Decoding in parts

Bytes can be cut anywhere. What is decoded of the first part is the beginning of the text, and what
follows is decoded from the bytes that the first part leaves unfinished and from the second part.
So a text can be decoded block by block, and bytes that are no text up to their first fault. The
bytes that a text is written in are those of its characters, so it comes back from them
(`decodeAll_encode`).
-/

namespace BusScript.Text.Utf8

/-- The bytes of one character, whatever follows them. -/
def Spells (bytes : List UInt8) (c : Char) : Prop :=
  bytes ≠ [] ∧ ∀ offset rest, decodeFrom offset (bytes ++ rest) =
    (c :: (decodeFrom (offset + bytes.length) rest).1, (decodeFrom (offset + bytes.length) rest).2)

section

variable {a b c d : UInt8} {count low high scalar : Nat}

theorem spells_one (ascii : a.toNat < 0x80) : Spells [a] (Char.ofNat a.toNat) := by
  refine ⟨List.cons_ne_nil _ _, fun offset rest => ?_⟩
  simp [decodeFrom, ascii]

theorem spells_two (start : 0x80 ≤ a.toNat) (promised : promise? a.toNat = some (1, low, high))
    (second : low ≤ b.toNat ∧ b.toNat ≤ high)
    (value : a.toNat % 32 * 64 + b.toNat % 64 = scalar) : Spells [a, b] (Char.ofNat scalar) := by
  have beyond : ¬a.toNat < 0x80 := by omega
  have inside : ¬(b.toNat < low ∨ high < b.toNat) := by omega
  refine ⟨List.cons_ne_nil _ _, fun offset rest => ?_⟩
  simp [decodeFrom, beyond, promised, inside, value]

theorem spells_three (start : 0x80 ≤ a.toNat) (promised : promise? a.toNat = some (2, low, high))
    (second : low ≤ b.toNat ∧ b.toNat ≤ high) (third : 0x80 ≤ c.toNat ∧ c.toNat ≤ 0xBF)
    (value : a.toNat % 16 * 4096 + b.toNat % 64 * 64 + c.toNat % 64 = scalar) :
    Spells [a, b, c] (Char.ofNat scalar) := by
  have beyond : ¬a.toNat < 0x80 := by omega
  have inside : ¬(b.toNat < low ∨ high < b.toNat) := by omega
  refine ⟨List.cons_ne_nil _ _, fun offset rest => ?_⟩
  simp [decodeFrom, beyond, promised, inside, third, value]

theorem spells_four (start : 0x80 ≤ a.toNat)
    (promised : promise? a.toNat = some (count, low, high)) (many : count ≠ 1 ∧ count ≠ 2)
    (second : low ≤ b.toNat ∧ b.toNat ≤ high) (third : 0x80 ≤ c.toNat ∧ c.toNat ≤ 0xBF)
    (fourth : 0x80 ≤ d.toNat ∧ d.toNat ≤ 0xBF)
    (value : a.toNat % 8 * 262144 + b.toNat % 64 * 4096 + c.toNat % 64 * 64 + d.toNat % 64 =
      scalar) : Spells [a, b, c, d] (Char.ofNat scalar) := by
  have beyond : ¬a.toNat < 0x80 := by omega
  have inside : ¬(b.toNat < low ∨ high < b.toNat) := by omega
  refine ⟨List.cons_ne_nil _ _, fun offset rest => ?_⟩
  simp [decodeFrom, beyond, promised, many, inside, third, fourth, value]

end

/-- Bytes start with a character, unless they are at their end, or in a character that is not
finished, or at a fault that more bytes do not mend. -/
theorem decodeFrom_cases (bytes : List UInt8) :
    bytes = [] ∨ (∃ head c rest, Spells head c ∧ bytes = head ++ rest) ∨
      (∀ offset, ∃ fault, decodeFrom offset bytes = ([], .unfinished bytes fault)) ∨
        ∀ offset, ∃ fault, ∀ more, decodeFrom offset (bytes ++ more) = ([], .broken fault) := by
  cases bytes with
  | nil => exact .inl rfl
  | cons a afterA =>
    right
    by_cases ascii : a.toNat < 0x80
    · exact .inl ⟨[a], _, afterA, spells_one ascii, rfl⟩
    cases promised : promise? a.toNat with
    | none =>
      refine .inr (.inr fun offset => ⟨⟨offset, [a], .startByte⟩, fun more => ?_⟩)
      simp [decodeFrom, ascii, promised]
    | some promise =>
      obtain ⟨count, low, high⟩ := promise
      cases afterA with
      | nil =>
        refine .inr (.inl fun offset => ⟨⟨offset, [a], .endOfData⟩, ?_⟩)
        simp [decodeFrom, ascii, promised]
      | cons b afterB =>
        by_cases outside : b.toNat < low ∨ high < b.toNat
        · by_cases surrogate : a.toNat = 0xED ∧ (0x80 ≤ b.toNat ∧ b.toNat ≤ 0xBF) ∧ afterB = []
          · obtain ⟨first, tail, rfl⟩ := surrogate
            refine .inr (.inl fun offset => ⟨⟨offset, [a], .continuationByte⟩, ?_⟩)
            rw [first] at promised
            simp [decodeFrom, promised, outside, first, tail]
          · refine .inr (.inr fun offset => ⟨⟨offset, [a], .continuationByte⟩, fun more => ?_⟩)
            have stays : ¬((a.toNat = 0xED ∧ 0x80 ≤ b.toNat ∧ b.toNat ≤ 0xBF) ∧
                afterB = [] ∧ more = []) :=
              fun ⟨⟨first, tail⟩, ends, _⟩ => surrogate ⟨first, tail, ends⟩
            simp [decodeFrom, ascii, promised, outside, stays]
        · have start : 0x80 ≤ a.toNat := Nat.not_lt.mp ascii
          have second : low ≤ b.toNat ∧ b.toNat ≤ high := by omega
          by_cases two : count = 1
          · subst two
            exact .inl ⟨[a, b], _, afterB, spells_two start promised second rfl, rfl⟩
          cases afterB with
          | nil =>
            refine .inr (.inl fun offset => ⟨⟨offset, [a, b], .endOfData⟩, ?_⟩)
            simp [decodeFrom, ascii, promised, outside, two]
          | cons c afterC =>
            by_cases third : 0x80 ≤ c.toNat ∧ c.toNat ≤ 0xBF
            · by_cases three : count = 2
              · subst three
                exact .inl ⟨[a, b, c], _, afterC, spells_three start promised second third rfl, rfl⟩
              cases afterC with
              | nil =>
                refine .inr (.inl fun offset => ⟨⟨offset, [a, b, c], .endOfData⟩, ?_⟩)
                simp [decodeFrom, ascii, promised, outside, two, third, three]
              | cons d afterD =>
                by_cases fourth : 0x80 ≤ d.toNat ∧ d.toNat ≤ 0xBF
                · exact .inl ⟨[a, b, c, d], _, afterD,
                    spells_four start promised ⟨two, three⟩ second third fourth rfl, rfl⟩
                · refine .inr (.inr fun offset =>
                    ⟨⟨offset, [a, b, c], .continuationByte⟩, fun more => ?_⟩)
                  simp [decodeFrom, ascii, promised, outside, two, third, three, fourth]
            · refine .inr (.inr fun offset =>
                ⟨⟨offset, [a, b], .continuationByte⟩, fun more => ?_⟩)
              simp [decodeFrom, ascii, promised, outside, two, third]

/-- Bytes character by character, up to where no more characters come. -/
inductive Cut : List UInt8 → Prop
  | ended : Cut []
  | char {head rest : List UInt8} {c : Char} : Spells head c → Cut rest → Cut (head ++ rest)
  | unfinished {bytes : List UInt8} :
    (∀ offset, ∃ fault, decodeFrom offset bytes = ([], .unfinished bytes fault)) → Cut bytes
  | broken {bytes : List UInt8} :
    (∀ offset, ∃ fault, ∀ more, decodeFrom offset (bytes ++ more) = ([], .broken fault)) →
      Cut bytes

theorem cut (bytes : List UInt8) : Cut bytes := by
  induction size : bytes.length using Nat.strongRecOn generalizing bytes with
  | _ size ih =>
    rcases decodeFrom_cases bytes with
      rfl | ⟨head, c, rest, spells, rfl⟩ | unfinished | broken
    · exact .ended
    · have some := List.length_pos_iff.mpr spells.1
      rw [List.length_append] at size
      exact .char spells (ih rest.length (by omega) rest rfl)
    · exact .unfinished unfinished
    · exact .broken broken

/-! ## Texts -/

/-- The bytes are those of the characters of a text, one after the other. -/
inductive Decodes : List UInt8 → List Char → Prop
  | nil : Decodes [] []
  | char {head rest : List UInt8} {c : Char} {text : List Char} :
    Spells head c → Decodes rest text → Decodes (head ++ rest) (c :: text)

theorem decodeFrom_complete_iff (offset : Nat) {bytes : List UInt8} {text : List Char} :
    decodeFrom offset bytes = (text, .complete) ↔ Decodes bytes text := by
  constructor
  · intro complete
    induction cut bytes generalizing offset text with
    | ended =>
      cases complete
      exact .nil
    | char spells _ ih =>
      rw [spells.2] at complete
      obtain ⟨rfl, ends⟩ := Prod.mk.inj complete
      exact .char spells (ih _ (Prod.ext rfl ends))
    | unfinished unfinished =>
      obtain ⟨fault, unfinished⟩ := unfinished offset
      rw [unfinished] at complete
      cases complete
    | broken broken =>
      obtain ⟨fault, broken⟩ := broken offset
      have broken := broken []
      rw [List.append_nil, complete] at broken
      cases broken
  · intro decodes
    induction decodes generalizing offset with
    | nil => rfl
    | char spells _ ih => rw [spells.2, ih]

theorem Decodes.length_le {bytes : List UInt8} {text : List Char} (decodes : Decodes bytes text) :
    text.length ≤ bytes.length := by
  induction decodes with
  | nil => exact Nat.le_refl _
  | char spells _ ih =>
    have some := List.length_pos_iff.mpr spells.1
    rw [List.length_append, List.length_cons]
    omega

theorem Decodes.of_char {head rest : List UInt8} {c : Char} {text : List Char}
    (spells : Spells head c) (decodes : Decodes (head ++ rest) text) :
    ∃ later, text = c :: later ∧ Decodes rest later := by
  have complete := (decodeFrom_complete_iff 0).mpr decodes
  rw [spells.2] at complete
  obtain ⟨rfl, ends⟩ := Prod.mk.inj complete
  exact ⟨_, rfl, (decodeFrom_complete_iff _).mp (Prod.ext rfl ends)⟩

/-- The first part of the bytes of a text is the beginning of the text and perhaps of one more
character, and the rest of the text is in what is left. -/
theorem Decodes.of_append {first rest : List UInt8} {text : List Char}
    (decodes : Decodes (first ++ rest) text) (offset : Nat) :
    ∃ held begun later, text = begun ++ later ∧ Decodes (held ++ rest) later ∧
      (decodeFrom offset first = (begun, .complete) ∧ held = [] ∨
        ∃ fault, decodeFrom offset first = (begun, .unfinished held fault)) := by
  induction cut first generalizing offset text with
  | ended => exact ⟨[], [], text, rfl, decodes, .inl ⟨rfl, rfl⟩⟩
  | @char head more c spells _ ih =>
    rw [List.append_assoc] at decodes
    obtain ⟨text, rfl, onward⟩ := decodes.of_char spells
    obtain ⟨held, begun, later, rfl, remaining, ends⟩ := ih onward (offset + head.length)
    refine ⟨held, c :: begun, later, rfl, remaining, ?_⟩
    rw [spells.2]
    rcases ends with ⟨complete, none⟩ | ⟨fault, unfinished⟩
    · rw [complete]
      exact .inl ⟨rfl, none⟩
    · rw [unfinished]
      exact .inr ⟨fault, rfl⟩
  | unfinished unfinished => exact ⟨_, [], text, rfl, decodes, .inr (unfinished offset)⟩
  | broken broken =>
    obtain ⟨fault, broken⟩ := broken offset
    have complete := (decodeFrom_complete_iff offset).mpr decodes
    rw [broken] at complete
    cases complete

/-! ## Encoded texts -/

section

variable {a b : Nat}

theorem promise_two (first : 0xC2 ≤ a ∧ a < 0xE0) : promise? a = some (1, 0x80, 0xBF) := by
  unfold promise?
  rw [if_neg (by omega), if_pos first.2]

/-- Behind the first of three bytes stands one with which they start no overlong form and no
surrogate. -/
theorem exists_promise_three (first : 0xE0 ≤ a ∧ a < 0xF0) (tail : 0x80 ≤ b ∧ b ≤ 0xBF)
    (short : a = 0xE0 → 0xA0 ≤ b) (surrogate : a = 0xED → b ≤ 0x9F) :
    ∃ low high, promise? a = some (2, low, high) ∧ low ≤ b ∧ b ≤ high := by
  unfold promise?
  rw [if_neg (by omega), if_neg (by omega)]
  split
  · exact ⟨_, _, rfl, short ‹_›, tail.2⟩
  · split
    · exact ⟨_, _, rfl, tail.1, surrogate ‹_›⟩
    · rw [if_pos first.2]
      exact ⟨_, _, rfl, tail⟩

/-- Behind the first of four bytes stands one with which they start no overlong form and nothing
beyond the last character. -/
theorem exists_promise_four (first : 0xF0 ≤ a ∧ a ≤ 0xF4) (tail : 0x80 ≤ b ∧ b ≤ 0xBF)
    (short : a = 0xF0 → 0x90 ≤ b) (most : a = 0xF4 → b ≤ 0x8F) :
    ∃ low high, promise? a = some (3, low, high) ∧ low ≤ b ∧ b ≤ high := by
  unfold promise?
  rw [if_neg (by omega), if_neg (by omega), if_neg (by omega), if_neg (by omega),
    if_neg (by omega)]
  split
  · exact ⟨_, _, rfl, short ‹_›, tail.2⟩
  · split
    · exact ⟨_, _, rfl, tail⟩
    · have last : a = 0xF4 := by omega
      rw [if_pos last]
      exact ⟨_, _, rfl, tail.1, most last⟩

end

section

variable {n : Nat}

theorem spells_scalar_two (size : 0x7F < n ∧ n ≤ 0x7FF) :
    Spells [UInt8.ofNat (n / 64 % 32 + 192), UInt8.ofNat (n % 64 + 128)] (Char.ofNat n) := by
  have a := UInt8.toNat_ofNat_of_lt' (show n / 64 % 32 + 192 < 256 by omega)
  have b := UInt8.toNat_ofNat_of_lt' (show n % 64 + 128 < 256 by omega)
  have promised := promise_two (show 0xC2 ≤ n / 64 % 32 + 192 ∧ n / 64 % 32 + 192 < 0xE0 by omega)
  rw [← a] at promised
  exact spells_two (by omega) promised (by omega) (by omega)

theorem spells_scalar_three (size : 0x7FF < n ∧ n ≤ 0xFFFF) (scalar : n < 0xD800 ∨ 0xDFFF < n) :
    Spells [UInt8.ofNat (n / 4096 % 16 + 224), UInt8.ofNat (n / 64 % 64 + 128),
      UInt8.ofNat (n % 64 + 128)] (Char.ofNat n) := by
  have a := UInt8.toNat_ofNat_of_lt' (show n / 4096 % 16 + 224 < 256 by omega)
  have b := UInt8.toNat_ofNat_of_lt' (show n / 64 % 64 + 128 < 256 by omega)
  have c := UInt8.toNat_ofNat_of_lt' (show n % 64 + 128 < 256 by omega)
  obtain ⟨low, high, promised, second⟩ := exists_promise_three (a := n / 4096 % 16 + 224)
    (b := n / 64 % 64 + 128) (by omega) (by omega) (by omega) (by omega)
  rw [← a] at promised
  exact spells_three (by omega) promised (by omega) (by omega) (by omega)

theorem spells_scalar_four (size : 0xFFFF < n ∧ n < 0x110000) :
    Spells [UInt8.ofNat (n / 262144 % 8 + 240), UInt8.ofNat (n / 4096 % 64 + 128),
      UInt8.ofNat (n / 64 % 64 + 128), UInt8.ofNat (n % 64 + 128)] (Char.ofNat n) := by
  have a := UInt8.toNat_ofNat_of_lt' (show n / 262144 % 8 + 240 < 256 by omega)
  have b := UInt8.toNat_ofNat_of_lt' (show n / 4096 % 64 + 128 < 256 by omega)
  have c := UInt8.toNat_ofNat_of_lt' (show n / 64 % 64 + 128 < 256 by omega)
  have d := UInt8.toNat_ofNat_of_lt' (show n % 64 + 128 < 256 by omega)
  obtain ⟨low, high, promised, second⟩ := exists_promise_four (a := n / 262144 % 8 + 240)
    (b := n / 4096 % 64 + 128) (by omega) (by omega) (by omega) (by omega)
  rw [← a] at promised
  exact spells_four (by omega) promised (by decide) (by omega) (by omega) (by omega) (by omega)

end

/-- The bytes of a character spell it. -/
theorem spells_utf8EncodeChar (c : Char) : Spells (String.utf8EncodeChar c) c := by
  have valid : c.val.toNat < 0xD800 ∨ 0xDFFF < c.val.toNat ∧ c.val.toNat < 0x110000 := c.valid
  have itself : Char.ofNat c.val.toNat = c := Char.ofNat_toNat c
  unfold String.utf8EncodeChar
  dsimp only
  generalize c.val.toNat = n at valid itself ⊢
  subst itself
  split
  · have a := UInt8.toNat_ofNat_of_lt' (show n < 256 by omega)
    have spells := @spells_one (UInt8.ofNat n) (by omega)
    rwa [a] at spells
  split
  · exact spells_scalar_two (by omega)
  split
  · exact spells_scalar_three (by omega) (by omega)
  · exact spells_scalar_four (by omega)

theorem decodes_encode (text : List Char) : Decodes (encode text) text := by
  induction text with
  | nil => exact .nil
  | cons c rest ih => exact .char (spells_utf8EncodeChar c) ih

/-- A text comes back from its bytes. -/
theorem decodeAll_encode (text : List Char) : decodeAll (encode text) = .ok text := by
  unfold decodeAll decode
  rw [(decodeFrom_complete_iff 0).mpr (decodes_encode text)]

/-! ## Any bytes -/

/-- The bytes that wait for more; none, if more cannot help. -/
def Ending.held? : Ending → Option (List UInt8)
  | .complete => some []
  | .unfinished bytes _ => some bytes
  | .broken _ => none

/-- What bytes decode to does not depend on where they start. -/
theorem decodeFrom_offset (offset other : Nat) (bytes : List UInt8) :
    (decodeFrom offset bytes).1 = (decodeFrom other bytes).1 ∧
      (decodeFrom offset bytes).2.held? = (decodeFrom other bytes).2.held? := by
  induction cut bytes generalizing offset other with
  | ended => exact ⟨rfl, rfl⟩
  | @char head rest c spells _ ih =>
    obtain ⟨text, held⟩ := ih (offset + head.length) (other + head.length)
    rw [spells.2, spells.2]
    exact ⟨congrArg (c :: ·) text, held⟩
  | unfinished unfinished =>
    obtain ⟨_, here⟩ := unfinished offset
    obtain ⟨_, there⟩ := unfinished other
    rw [here, there]
    exact ⟨rfl, rfl⟩
  | @broken bytes broken =>
    obtain ⟨_, here⟩ := broken offset
    obtain ⟨_, there⟩ := broken other
    rw [← List.append_nil bytes, here, there]
    exact ⟨rfl, rfl⟩

/-- What follows bytes is decoded behind those of them that wait for more. -/
theorem decode_append {first held : List UInt8} (holds : (decode first).2.held? = some held)
    (rest : List UInt8) :
    (decode (first ++ rest)).1 = (decode first).1 ++ (decode (held ++ rest)).1 ∧
      (decode (first ++ rest)).2.held? = (decode (held ++ rest)).2.held? := by
  unfold decode at holds ⊢
  generalize 0 = offset at holds ⊢
  induction cut first generalizing offset with
  | ended =>
    cases holds
    exact ⟨rfl, rfl⟩
  | @char head more c spells _ ih =>
    rw [spells.2] at holds
    obtain ⟨text, left⟩ := ih (offset + head.length) holds
    obtain ⟨same, also⟩ := decodeFrom_offset (offset + head.length) offset (held ++ rest)
    rw [List.append_assoc, spells.2, spells.2]
    dsimp only
    rw [text, left, same, also]
    exact ⟨rfl, rfl⟩
  | unfinished unfinished =>
    obtain ⟨fault, here⟩ := unfinished offset
    rw [here] at holds ⊢
    cases holds
    exact ⟨rfl, rfl⟩
  | broken broken =>
    obtain ⟨fault, here⟩ := broken offset
    have alone := here []
    rw [List.append_nil] at alone
    rw [alone] at holds
    cases holds

/-- No more bytes mend a fault. -/
theorem decode_append_broken {first : List UInt8} (faulty : (decode first).2.held? = none)
    (rest : List UInt8) : (decode (first ++ rest)).2.held? = none := by
  unfold decode at faulty ⊢
  generalize 0 = offset at faulty ⊢
  induction cut first generalizing offset with
  | ended => cases faulty
  | @char head more c spells _ ih =>
    rw [spells.2] at faulty
    rw [List.append_assoc, spells.2]
    exact ih (offset + head.length) faulty
  | unfinished unfinished =>
    obtain ⟨fault, here⟩ := unfinished offset
    rw [here] at faulty
    cases faulty
  | broken broken =>
    obtain ⟨fault, here⟩ := broken offset
    rw [here]
    rfl

/-- Bytes that wait for more give out nothing by themselves. -/
theorem decode_held {bytes held : List UInt8} (holds : (decode bytes).2.held? = some held) :
    (decode held).1 = [] ∧ (decode held).2.held? = some held := by
  obtain ⟨text, left⟩ := decode_append holds []
  rw [List.append_nil, List.append_nil] at text left
  exact ⟨List.append_right_eq_self.mp text.symm, left.symm.trans holds⟩

/-- Bytes are complete if none of them waits for more. -/
theorem exists_decodeAll_of_held {bytes : List UInt8}
    (nothing : (decode bytes).2.held? = some []) : ∃ text, decodeAll bytes = .ok text := by
  have complete : (decode bytes).2 = .complete := by
    unfold decode at nothing ⊢
    generalize 0 = offset at nothing ⊢
    induction cut bytes generalizing offset with
    | ended => rfl
    | char spells _ ih =>
      rw [spells.2] at nothing ⊢
      exact ih _ nothing
    | unfinished unfinished =>
      obtain ⟨fault, here⟩ := unfinished offset
      rw [here] at nothing
      cases nothing
      cases here
    | @broken bytes broken =>
      obtain ⟨fault, here⟩ := broken offset
      rw [← List.append_nil bytes, here] at nothing
      cases nothing
  unfold decodeAll
  rcases decoded : decode bytes with ⟨text, ending⟩
  rw [decoded] at complete
  cases complete
  exact ⟨text, rfl⟩

theorem length_decode_le (bytes : List UInt8) : (decode bytes).1.length ≤ bytes.length := by
  unfold decode
  generalize 0 = offset
  induction cut bytes generalizing offset with
  | ended => exact Nat.zero_le _
  | @char head rest c spells _ ih =>
    have some := List.length_pos_iff.mpr spells.1
    have few := ih (offset + head.length)
    rw [spells.2, List.length_cons, List.length_append]
    omega
  | unfinished unfinished =>
    obtain ⟨fault, here⟩ := unfinished offset
    rw [here]
    exact Nat.zero_le _
  | @broken bytes broken =>
    obtain ⟨fault, here⟩ := broken offset
    rw [← List.append_nil bytes, here]
    exact Nat.zero_le _

end BusScript.Text.Utf8
