import BusScript.Proofs.Number.Written
import BusScript.Trace.Json
import Mathlib.Tactic.IntervalCases

/-!
# JSON read back

A reader of JSON: blanks between all parts, strings with every escape and with surrogate pairs,
numbers with fraction and exponent, lists and objects in each other to any depth. It refuses what is
no JSON, such as a control character in a string, a surrogate without its partner, a leading zero or
a comma with nothing behind it. Each value that is written for a field of a record is read back by
it wherever a comma or a closing bracket follows (`readsBack_value`), and so is the object of a
record (`read_object`).
-/

namespace BusScript.Trace.Json

/-! ## A reader -/

/-- What a JSON text means. -/
inductive Value
  | null
  | bool (value : Bool)
  | integer (value : Int)
  /-- A number with a fraction or an exponent: its digits times a power of ten. -/
  | decimal (digits exponent : Int)
  | text (value : String)
  | list (items : List Value)
  | object (members : List (String × Value))

/-- What is read at the front of a text, and the text behind it. -/
abbrev Reader (α : Type) := List Char → Option (α × List Char)

def isBlank (c : Char) : Bool :=
  c == ' ' || c == '\t' || c == '\n' || c == '\r'

def skipBlanks (text : List Char) : List Char :=
  text.dropWhile isBlank

/-! ### Strings -/

/-- The unit that is escaped by a letter or sign behind a backslash. -/
def shortEscape? (c : Char) : Option Nat :=
  if c = '"' ∨ c = '\\' ∨ c = '/' then some c.toNat
  else if c = 'b' then some 8
  else if c = 't' then some 9
  else if c = 'n' then some 10
  else if c = 'f' then some 12
  else if c = 'r' then some 13
  else none

/-- The UTF-16 units of a string, behind its opening quote. -/
def readUnits : Reader (List Nat)
  | [] => none
  | c :: rest =>
    if c = '"' then some ([], rest)
    else if c = '\\' then
      match rest with
      | 'u' :: c₁ :: c₂ :: c₃ :: c₄ :: rest => do
        let unit ← Number.ofHex? [c₁, c₂, c₃, c₄]
        let (others, rest) ← readUnits rest
        return (unit :: others, rest)
      | c :: rest => do
        let unit ← shortEscape? c
        let (others, rest) ← readUnits rest
        return (unit :: others, rest)
      | [] => none
    else if c.toNat < 0x20 then none
    else do
      let (others, rest) ← readUnits rest
      return (units c ++ others, rest)

/-- The characters of UTF-16 units; a high surrogate needs a low one behind it. -/
def ofUnits? : List Nat → Option (List Char)
  | [] => some []
  | unit :: rest =>
    if unit < 0xD800 ∨ 0xE000 ≤ unit then do
      let others ← ofUnits? rest
      return Char.ofNat unit :: others
    else match rest with
      | low :: rest =>
        if unit < 0xDC00 ∧ 0xDC00 ≤ low ∧ low < 0xE000 then do
          let others ← ofUnits? rest
          return Char.ofNat (0x10000 + (unit - 0xD800) * 0x400 + (low - 0xDC00)) :: others
        else none
      | [] => none

/-- A string, behind its opening quote. -/
def readString : Reader String := fun text => do
  let (units, rest) ← readUnits text
  let characters ← ofUnits? units
  return (String.ofList characters, rest)

/-! ### Numbers -/

/-- Digits, at least one. -/
def readDigits : Reader (List Char) := fun text =>
  let digits := text.takeWhile Char.isDigit
  if digits = [] then none else some (digits, text.dropWhile Char.isDigit)

def natural (digits : List Char) : Nat :=
  Number.ofDigits 10 (digits.map fun c => c.toNat - 48)

def signed (negative : Bool) (n : Nat) : Int :=
  if negative then -n else n

/-- The digits behind a point, if there is one. -/
def readFraction : Reader (List Char)
  | '.' :: rest => readDigits rest
  | text => some ([], text)

/-- The number behind an `e`, if there is one. -/
def readExponent : Reader (Option Int)
  | [] => some (none, [])
  | c :: rest =>
    if c = 'e' ∨ c = 'E' then do
      let sign := rest.head?.filter fun c => c == '+' || c == '-'
      let (digits, rest) ← readDigits (if sign.isSome then rest.tail else rest)
      return (some (signed (sign == some '-') (natural digits)), rest)
    else some (none, c :: rest)

/-- A number; without fraction and exponent it is an integer. -/
def readNumber : Reader Value := fun text => do
  let negative := text.head? == some '-'
  let (whole, rest) ← readDigits (if negative then text.tail else text)
  let (fraction, rest) ← readFraction rest
  let (exponent, rest) ← readExponent rest
  let digits := signed negative (natural (whole ++ fraction))
  if whole.head? = some '0' ∧ whole ≠ ['0'] then none
  else if fraction = [] ∧ exponent = none then some (.integer digits, rest)
  else some (.decimal digits (exponent.getD 0 - fraction.length), rest)

/-! ### Values -/

/-- Items with commas between them up to a closing character, fewer than the bound. -/
def readItems {α : Type} (item : Reader α) (close : Char) : Nat → Reader (List α)
  | 0, _ => none
  | bound + 1, text => do
    let (first, rest) ← item text
    match skipBlanks rest with
    | [] => none
    | c :: rest =>
      if c = ',' then do
        let (others, rest) ← readItems item close bound rest
        return (first :: others, rest)
      else if c = close then some ([first], rest)
      else none

/-- Items up to a closing character, perhaps none. An item is not empty, so a text has no more items
than characters. -/
def readEnclosed {α : Type} (item : Reader α) (close : Char) : Reader (List α) := fun text =>
  match skipBlanks text with
  | [] => none
  | c :: rest => if c = close then some ([], rest) else readItems item close text.length text

/-- A member of an object: its name, a colon and its value. -/
def readMember {α : Type} (value : Reader α) : Reader (String × α) := fun text =>
  match skipBlanks text with
  | '"' :: rest => do
    let (name, rest) ← readString rest
    match skipBlanks rest with
    | ':' :: rest => do
      let (value, rest) ← value rest
      return ((name, value), rest)
    | _ => none
  | _ => none

/-- A value of which less than `depth` lists and objects are in each other; their brackets are
written by their numbers. -/
def readValue : Nat → Reader Value
  | 0, _ => none
  | depth + 1, text =>
    match skipBlanks text with
    | '"' :: rest => (readString rest).map fun (value, rest) => (.text value, rest)
    | '[' :: rest =>
      (readEnclosed (readValue depth) ']' rest).map fun (items, rest) => (.list items, rest)
    | '\x7b' :: rest =>
      (readEnclosed (readMember (readValue depth)) '\x7d' rest).map fun (members, rest) =>
        (.object members, rest)
    | 'n' :: 'u' :: 'l' :: 'l' :: rest => some (.null, rest)
    | 't' :: 'r' :: 'u' :: 'e' :: rest => some (.bool true, rest)
    | 'f' :: 'a' :: 'l' :: 's' :: 'e' :: rest => some (.bool false, rest)
    | text => readNumber text

/-- The value of a JSON text. Each list and object in another has a character of its own, so the
length of the text bounds their depth. -/
def read (text : List Char) : Option Value := do
  let (value, rest) ← readValue (text.length + 1) text
  if skipBlanks rest = [] then some value else none

/-! ## Strings -/

theorem ofHex?_hexField (count n : Nat) :
    Number.ofHex? (Text.hexField count n) = some (n % 16 ^ count) := by
  induction count generalizing n with
  | zero => simp [Text.hexField, Number.ofHex?, Nat.mod_one]
  | succ count ih =>
    have last : Number.hexDigit? (Text.smallHexDigit (n % 16)) = some (n % 16) :=
      @Number.hexDigit?_hexDigit .small _ (Nat.mod_lt n (by decide))
    rw [Text.hexField, Number.ofHex?_concat (ih (n / 16)) last, Nat.pow_succ', Nat.mod_mul]
    congr 1
    omega

/-- A unit written by its number is read back. -/
theorem readUnits_hexField {unit : Nat} (fits : unit < 0x10000) (rest : List Char) :
    readUnits ('\\' :: 'u' :: Text.hexField 4 unit ++ rest) =
      (readUnits rest).map (Prod.map (unit :: ·) id) := by
  have number := ofHex?_hexField 4 unit
  rw [Nat.mod_eq_of_lt (by omega)] at number
  simp only [Text.hexField, List.nil_append, List.cons_append] at number ⊢
  rw [readUnits]
  simp only [number]
  cases readUnits rest <;> simp [Prod.map]

/-- A unit written by a letter or sign is read back. -/
theorem readUnits_short {c : Char} {unit : Nat} (short : shortEscape? c = some unit)
    (rest : List Char) :
    readUnits ('\\' :: c :: rest) = (readUnits rest).map (Prod.map (unit :: ·) id) := by
  have unlike : c ≠ 'u' := by
    rintro rfl
    simp [shortEscape?] at short
  rw [readUnits]
  simp only [short, Char.reduceEq, ↓reduceIte]
  · cases readUnits rest <;> simp [Prod.map]
  · intro c₁ c₂ c₃ c₄ behind same
    exact absurd same unlike

theorem readUnits_plain {c : Char} (printable : 0x20 ≤ c.toNat) (quote : c ≠ '"')
    (backslash : c ≠ '\\') (rest : List Char) :
    readUnits (c :: rest) = (readUnits rest).map (Prod.map (units c ++ ·) id) := by
  rw [readUnits.eq_def (c :: rest)]
  simp only [quote, backslash, show ¬c.toNat < 0x20 by omega, ↓reduceIte]
  cases readUnits rest <;> simp [Prod.map]

theorem units_of_lt {c : Char} (small : c.toNat < 0x10000) : units c = [c.toNat] := by
  simp [units, small]

theorem isScalar (c : Char) :
    c.toNat < 0xD800 ∨ 0xDFFF < c.toNat ∧ c.toNat < 0x110000 := c.valid

theorem units_lt {c : Char} {unit : Nat} (member : unit ∈ units c) : unit < 0x10000 := by
  have valid := isScalar c
  simp only [units] at member
  split at member <;> simp at member <;> omega

/-- Units written by their numbers are read back. -/
theorem readUnits_hexFields {written : List Nat} (fit : ∀ unit ∈ written, unit < 0x10000)
    (rest : List Char) :
    readUnits (written.flatMap (fun unit => '\\' :: 'u' :: Text.hexField 4 unit) ++ rest) =
      (readUnits rest).map (Prod.map (written ++ ·) id) := by
  induction written with
  | nil => exact (congrFun Option.map_id _).symm
  | cons unit others ih =>
    rw [List.flatMap_cons, List.append_assoc, readUnits_hexField (fit unit List.mem_cons_self),
      ih fun unit member => fit unit (List.mem_cons_of_mem _ member)]
    cases readUnits rest <;> simp [Prod.map]

/-- An escaped character is read back as its units. -/
theorem readUnits_escape (c : Char) (rest : List Char) :
    readUnits (escape c ++ rest) = (readUnits rest).map (Prod.map (units c ++ ·) id) := by
  unfold escape
  split_ifs with mark feed returned tab backspace page printable
  · have short : shortEscape? c = some c.toNat := by
      rcases mark with rfl | rfl <;> rfl
    have small : c.toNat < 0x10000 := by
      rcases mark with rfl | rfl <;> decide
    rw [units_of_lt small]
    exact readUnits_short short rest
  · subst feed
    exact readUnits_short rfl rest
  · subst returned
    exact readUnits_short rfl rest
  · subst tab
    exact readUnits_short rfl rest
  · rw [units_of_lt (by omega), backspace]
    exact readUnits_short rfl rest
  · rw [units_of_lt (by omega), page]
    exact readUnits_short rfl rest
  · have bound : 0x20 ≤ c.toNat := printable.1
    exact readUnits_plain bound (fun same => mark (.inl same)) (fun same => mark (.inr same)) rest
  · exact readUnits_hexFields (fun unit => units_lt) rest

/-- The units of a character make that character. -/
theorem ofUnits?_units (c : Char) (others : List Nat) :
    ofUnits? (units c ++ others) = (ofUnits? others).map (c :: ·) := by
  have valid := isScalar c
  by_cases small : c.toNat < 0x10000
  · have apart : c.toNat < 0xD800 ∨ 0xE000 ≤ c.toNat := by omega
    rw [units_of_lt small, List.singleton_append, ofUnits?.eq_def (c.toNat :: others)]
    simp only [apart, ↓reduceIte, Char.ofNat_toNat]
    cases ofUnits? others <;> simp
  · have high : ¬(0xD800 + (c.toNat - 0x10000) / 0x400 < 0xD800 ∨
        0xE000 ≤ 0xD800 + (c.toNat - 0x10000) / 0x400) := by omega
    have pair : 0xD800 + (c.toNat - 0x10000) / 0x400 < 0xDC00 ∧
        0xDC00 ≤ 0xDC00 + (c.toNat - 0x10000) % 0x400 ∧
        0xDC00 + (c.toNat - 0x10000) % 0x400 < 0xE000 := by omega
    have number : 0x10000 + (0xD800 + (c.toNat - 0x10000) / 0x400 - 0xD800) * 0x400 +
        (0xDC00 + (c.toNat - 0x10000) % 0x400 - 0xDC00) = c.toNat := by omega
    simp only [units, small, ↓reduceIte, List.cons_append, List.nil_append]
    rw [ofUnits?.eq_def (_ :: _)]
    simp only [high, pair, and_self, ↓reduceIte, number, Char.ofNat_toNat]
    cases ofUnits? others <;> simp

/-- A written string is read back. -/
theorem readString_string (text : String) (rest : List Char) :
    readString (text.toList.flatMap escape ++ '"' :: rest) = some (text, rest) := by
  have units : readUnits (text.toList.flatMap escape ++ '"' :: rest) =
      some (text.toList.flatMap units, rest) := by
    induction text.toList with
    | nil => rw [List.flatMap_nil, List.nil_append, readUnits.eq_def]; rfl
    | cons c others ih => simp [List.flatMap_cons, readUnits_escape, ih]
  have characters : ofUnits? (text.toList.flatMap Json.units) = some text.toList := by
    induction text.toList with
    | nil => simp [ofUnits?]
    | cons c others ih => simp [List.flatMap_cons, ofUnits?_units, ih]
  simp [readString, units, characters]

/-! ## Numbers -/

/-- What stands behind a value: a comma, or the bracket that closes a list or an object. -/
def IsDelimiter (c : Char) : Prop :=
  c = ',' ∨ c = ']' ∨ c = '\x7d'

/-- Only zero starts with a zero. -/
theorem head?_toDigits {n : Nat} (positive : 0 < n) : (Nat.toDigits 10 n).head? ≠ some '0' := by
  induction n using Nat.strongRecOn with
  | ind n ih =>
    rcases Nat.lt_or_ge n 10 with below | beyond
    · rw [Nat.toDigits_of_lt_base below]
      interval_cases n <;> decide
    · have front : (Nat.toDigits 10 (n / 10)).head? ≠ some '0' := ih (n / 10) (by omega) (by omega)
      rw [Nat.toDigits_of_base_le (by decide) beyond]
      obtain ⟨first, others, digits⟩ :=
        List.exists_cons_of_ne_nil (Nat.toDigits_ne_nil (n := n / 10) (b := 10))
      rwa [digits] at front ⊢

theorem readDigits_append {digits : List Char} {c : Char} (some : digits ≠ [])
    (all : ∀ d ∈ digits, d.isDigit) (behind : c.isDigit = false) (rest : List Char) :
    readDigits (digits ++ c :: rest) = .some (digits, c :: rest) := by
  have front : (digits ++ c :: rest).takeWhile Char.isDigit = digits := by
    rw [List.takeWhile_append_of_pos all]
    simp [behind]
  have back : (digits ++ c :: rest).dropWhile Char.isDigit = c :: rest := by
    rw [List.dropWhile_append_of_pos all]
    simp [behind]
  simp only [readDigits, front, back, some, ↓reduceIte]

/-- The digits of a number are read back, with or without a sign before them. -/
theorem readNumber_toDigits {c : Char} (delimited : IsDelimiter c) (negative : Bool) (n : Nat)
    (rest : List Char) :
    readNumber ((if negative then ['-'] else []) ++ Nat.toDigits 10 n ++ c :: rest) =
      some (.integer (signed negative n), c :: rest) := by
  have all : ∀ d ∈ Nat.toDigits 10 n, d.isDigit := fun d member =>
    Nat.isDigit_of_mem_toDigits (by decide) (by decide) member
  have behind : c.isDigit = false := by
    rcases delimited with rfl | rfl | rfl <;> rfl
  have noFraction : readFraction (c :: rest) = some ([], c :: rest) := by
    rcases delimited with rfl | rfl | rfl <;> rfl
  have noExponent : readExponent (c :: rest) = some (none, c :: rest) := by
    rcases delimited with rfl | rfl | rfl <;> rfl
  have whole : ¬((Nat.toDigits 10 n).head? = some '0' ∧ Nat.toDigits 10 n ≠ ['0']) := by
    rintro ⟨zero, more⟩
    rcases Nat.eq_zero_or_pos n with rfl | positive
    · exact more rfl
    · exact head?_toDigits positive zero
  have digits := readDigits_append Nat.toDigits_ne_nil all behind rest
  have unsigned : ((Nat.toDigits 10 n ++ c :: rest).head? == some '-') = false := by
    obtain ⟨first, others, spelled⟩ :=
      List.exists_cons_of_ne_nil (Nat.toDigits_ne_nil (n := n) (b := 10))
    have digit := all first (by simp [spelled])
    rw [spelled]
    simp only [List.cons_append, List.head?_cons, beq_eq_false_iff_ne, ne_eq, Option.some.injEq]
    rintro rfl
    cases digit
  have value : natural (Nat.toDigits 10 n) = n := ofDigits_toDigits n
  cases negative with
  | false =>
    simp only [Bool.false_eq_true, ↓reduceIte, List.nil_append, readNumber, unsigned]
    simp [digits, noFraction, noExponent, whole, value]
  | true => simp [readNumber, digits, noFraction, noExponent, whole, value]

/-- A written number is read back. -/
theorem readNumber_toString {c : Char} (delimited : IsDelimiter c) (n : Int) (rest : List Char) :
    readNumber ((toString n).toList ++ c :: rest) = some (.integer n, c :: rest) := by
  rw [Int.toString_eq_repr, Int.repr_eq_if]
  split
  · rename_i positive
    have read := readNumber_toDigits delimited false n.toNat rest
    simpa [signed, Nat.toList_repr, Int.toNat_of_nonneg positive] using read
  · rename_i negative
    have read := readNumber_toDigits delimited true (-n).toNat rest
    have value : signed true (-n).toNat = n := by
      simp only [signed, ↓reduceIte]
      omega
    simpa [value, Nat.toList_repr] using read

/-! ## Values -/

theorem skipBlanks_append {before : List Char} (blank : ∀ c ∈ before, isBlank c)
    (text : List Char) : skipBlanks (before ++ text) = skipBlanks text :=
  List.dropWhile_append_of_pos blank

theorem skipBlanks_cons {c : Char} (solid : isBlank c = false) (rest : List Char) :
    skipBlanks (c :: rest) = c :: rest := by
  simp [skipBlanks, solid]

theorem IsDelimiter.isBlank_eq_false {c : Char} (delimited : IsDelimiter c) :
    isBlank c = false := by
  rcases delimited with rfl | rfl | rfl <;> rfl

/-- A text means something to a reader wherever it stands behind blanks and before a delimiter. -/
def ReadsBack {α : Type} (item : Reader α) (text : List Char) (meant : α) : Prop :=
  ∀ before c rest, (∀ b ∈ before, isBlank b) → IsDelimiter c →
    item (before ++ text ++ c :: rest) = some (meant, c :: rest)

section

variable {α β : Type} {item : Reader α} {close : Char} {spell : β → List Char} {meaning : β → α}

theorem joined_cons_cons (first second : List Char) (others : List (List Char)) :
    joined (first :: second :: others) = first ++ ',' :: ' ' :: joined (second :: others) := by
  simp [joined, List.intercalate_cons_cons]

/-- Items are read back one by one. -/
theorem readItems_joined (closing : close = ']' ∨ close = '\x7d') {first : β} {others : List β}
    (each : ∀ b ∈ first :: others, ReadsBack item (spell b) (meaning b)) {bound : Nat}
    (enough : others.length < bound) {before : List Char} (blank : ∀ b ∈ before, isBlank b)
    (rest : List Char) :
    readItems item close bound (before ++ joined ((first :: others).map spell) ++ close :: rest) =
      some ((first :: others).map meaning, rest) := by
  have last : IsDelimiter close := .inr closing
  have noComma : close ≠ ',' := by
    rcases closing with rfl | rfl <;> decide
  induction others generalizing first bound before with
  | nil =>
    obtain ⟨bound, rfl⟩ := Nat.exists_eq_succ_of_ne_zero (Nat.ne_of_gt enough)
    have one := each first List.mem_cons_self before close rest blank last
    simp only [List.map_cons, List.map_nil, joined, List.intercalate_singleton, readItems, one,
      skipBlanks_cons last.isBlank_eq_false, bind, Option.bind]
    simp [noComma]
  | cons second others ih =>
    obtain ⟨bound, rfl⟩ := Nat.exists_eq_succ_of_ne_zero (Nat.ne_of_gt (Nat.zero_lt_of_lt enough))
    have comma : IsDelimiter ',' := .inl rfl
    have one := each first List.mem_cons_self before ','
      ([' '] ++ joined ((second :: others).map spell) ++ close :: rest) blank comma
    have space : ∀ b ∈ [' '], isBlank b := by simp [isBlank]
    have tail := ih (fun b member => each b (List.mem_cons_of_mem _ member))
      (Nat.lt_of_succ_lt_succ enough) space
    have text : before ++ joined ((first :: second :: others).map spell) ++ close :: rest =
        before ++ spell first ++
          ',' :: ([' '] ++ joined ((second :: others).map spell) ++ close :: rest) := by
      simp [joined_cons_cons]
    rw [text, readItems, one]
    simp only [bind, Option.bind, skipBlanks_cons comma.isBlank_eq_false, ↓reduceIte, tail]
    rfl

theorem length_le_joined {texts : List (List Char)} (filled : ∀ text ∈ texts, text ≠ []) :
    texts.length ≤ (joined texts).length := by
  induction texts with
  | nil => simp
  | cons first others ih =>
    have positive : 0 < first.length :=
      List.length_pos_iff.mpr (filled first List.mem_cons_self)
    have rest := ih fun text member => filled text (List.mem_cons_of_mem _ member)
    cases others with
    | nil => simpa [joined, List.intercalate_singleton, Nat.succ_le_iff] using positive
    | cons second others =>
      rw [joined_cons_cons]
      simp only [List.length_cons, List.length_append] at rest ⊢
      omega

/-- Items are read back up to the closing character; each starts with a double quote, so none is
taken for that character. -/
theorem readEnclosed_joined (closing : close = ']' ∨ close = '\x7d') {written : List β}
    (each : ∀ b ∈ written, ReadsBack item (spell b) (meaning b))
    (quoted : ∀ b ∈ written, (spell b).head? = some '"') (rest : List Char) :
    readEnclosed item close (joined (written.map spell) ++ close :: rest) =
      some (written.map meaning, rest) := by
  cases written with
  | nil =>
    have last : IsDelimiter close := .inr closing
    simp only [List.map_nil, joined, List.intercalate_nil, List.nil_append, readEnclosed,
      skipBlanks_cons last.isBlank_eq_false, ↓reduceIte]
  | cons first others =>
    have filled : ∀ text ∈ (first :: others).map spell, text ≠ [] := by
      intro text member empty
      obtain ⟨b, among, rfl⟩ := List.mem_map.1 member
      have head := quoted b among
      simp [empty] at head
    have enough : others.length <
        (joined ((first :: others).map spell) ++ close :: rest).length := by
      have length := length_le_joined filled
      simp only [List.length_map, List.length_cons, List.length_append] at length ⊢
      omega
    have items := readItems_joined closing each enough (List.forall_mem_nil _) rest
    obtain ⟨behind, text⟩ :
        ∃ behind, joined ((first :: others).map spell) ++ close :: rest = '"' :: behind := by
      obtain ⟨others', head⟩ := List.head?_eq_some_iff.mp (quoted first List.mem_cons_self)
      cases others with
      | nil => exact ⟨_, by simp [joined, List.intercalate_singleton, head]; rfl⟩
      | cons second others =>
        exact ⟨_, by rw [List.map_cons, List.map_cons, joined_cons_cons, head]; rfl⟩
    have unlike : '"' ≠ close := by
      rcases closing with rfl | rfl <;> decide
    rw [List.nil_append, text] at items
    rw [text, readEnclosed]
    simp only [skipBlanks_cons (show isBlank '"' = false from rfl), unlike, ↓reduceIte]
    exact items

/-- A member is read back if its value is. -/
theorem readsBack_member {name : String} {text : List Char} {meant : α}
    (value : ReadsBack item text meant) :
    ReadsBack (readMember item) (string name ++ [':', ' '] ++ text) (name, meant) := by
  intro before c rest blank delimited
  have behind := value [' '] c rest (by simp [isBlank]) delimited
  have shape : before ++ (string name ++ [':', ' '] ++ text) ++ c :: rest = before ++
      '"' :: (name.toList.flatMap escape ++ '"' :: ':' :: ([' '] ++ text ++ c :: rest)) := by
    simp [string]
  rw [shape, readMember, skipBlanks_append blank, skipBlanks_cons rfl]
  simp only [readString_string, bind, Option.bind,
    skipBlanks_cons (show isBlank ':' = false from rfl)]
  rw [behind]
  rfl

end

/-- What the value of a field means. -/
def Value.ofField : TraceRecord.Field → Value
  | .missing => .null
  | .number value => .integer value
  | .text value => .text value
  | .texts values => .list (values.map .text)

theorem readsBack_string (depth : Nat) (text : String) :
    ReadsBack (readValue (depth + 1)) (string text) (.text text) := by
  intro before c rest blank delimited
  have shape : before ++ string text ++ c :: rest =
      before ++ '"' :: (text.toList.flatMap escape ++ '"' :: c :: rest) := by
    simp [string]
  rw [shape, readValue, skipBlanks_append blank, skipBlanks_cons rfl]
  simp only [readString_string]
  rfl

/-- A number starts with a minus sign or a digit. -/
theorem toString_eq_cons (n : Int) :
    ∃ first others, (toString n).toList = first :: others ∧
      (first = '-' ∨ first.isDigit = true) := by
  have digits (n : Nat) : ∃ first others, Nat.toDigits 10 n = first :: others ∧
      first.isDigit = true := by
    obtain ⟨first, others, spelled⟩ :=
      List.exists_cons_of_ne_nil (Nat.toDigits_ne_nil (n := n) (b := 10))
    exact ⟨first, others, spelled,
      Nat.isDigit_of_mem_toDigits (by decide) (by decide) (spelled ▸ List.mem_cons_self)⟩
  rw [Int.toString_eq_repr, Int.repr_eq_if]
  split
  · obtain ⟨first, others, spelled, digit⟩ := digits n.toNat
    exact ⟨first, others, by rw [Nat.toList_repr, spelled], .inr digit⟩
  · exact ⟨'-', Nat.toDigits 10 (-n).toNat, by simp [Nat.toList_repr], .inl rfl⟩

theorem readsBack_number (depth : Nat) (n : Int) :
    ReadsBack (readValue (depth + 1)) (toString n).toList (.integer n) := by
  intro before c rest blank delimited
  obtain ⟨first, others, spelled, start⟩ := toString_eq_cons n
  have read := readNumber_toString delimited n rest
  have solid : isBlank first = false := by
    rcases start with rfl | digit
    · rfl
    · revert digit
      simp only [isBlank, Bool.or_eq_false_iff, beq_eq_false_iff_ne]
      intro digit
      refine ⟨⟨⟨?_, ?_⟩, ?_⟩, ?_⟩ <;> rintro rfl <;> cases digit
  have unlike (other : Char) (noDigit : other.isDigit = false) (noMinus : other ≠ '-') :
      first ≠ other := by
    rintro rfl
    rcases start with rfl | digit
    · exact noMinus rfl
    · simp [noDigit] at digit
  rw [spelled, List.cons_append] at read
  rw [spelled, List.append_assoc, readValue, skipBlanks_append blank, List.cons_append,
    skipBlanks_cons solid]
  -- No other kind of value starts with a digit or a minus sign.
  split
  all_goals first
    | exact read
    | rename_i same
      exact absurd (List.cons.inj same).1 (unlike _ (by decide) (by decide))

/-- The value of a field is read back. -/
theorem readsBack_value (depth : Nat) (field : TraceRecord.Field) :
    ReadsBack (readValue (depth + 2)) (value field) (.ofField field) := by
  cases field with
  | missing =>
    intro before c rest blank delimited
    rw [List.append_assoc, readValue, skipBlanks_append blank]
    rfl
  | number n => exact readsBack_number (depth + 1) n
  | text text => exact readsBack_string (depth + 1) text
  | texts texts =>
    intro before c rest blank delimited
    have items : readEnclosed (readValue (depth + 1)) ']'
        (joined (texts.map string) ++ ']' :: c :: rest) = some (texts.map .text, c :: rest) :=
      readEnclosed_joined (.inl rfl) (fun text _ => readsBack_string depth text)
        (fun text _ => rfl) (c :: rest)
    have shape : before ++ value (.texts texts) ++ c :: rest =
        before ++ '[' :: (joined (texts.map string) ++ ']' :: c :: rest) := by
      simp [value]
    rw [shape, readValue, skipBlanks_append blank, skipBlanks_cons rfl]
    simp only [items]
    rfl

theorem readValue_object (depth : Nat) (members : List (String × TraceRecord.Field)) :
    readValue (depth + 3) (object members) =
      some (.object (members.map fun (name, field) => (name, .ofField field)), []) := by
  have items : readEnclosed (readMember (readValue (depth + 2))) '\x7d'
      (joined (members.map fun (name, field) => string name ++ [':', ' '] ++ value field) ++
        '\x7d' :: []) =
      some (members.map fun (name, field) => (name, Value.ofField field), []) :=
    readEnclosed_joined (.inr rfl)
      (fun member _ => readsBack_member (readsBack_value depth member.2)) (fun member _ => rfl) []
  rw [object, List.cons_append, readValue, skipBlanks_cons rfl]
  simp only [items]
  rfl

/-- A written object is read back member by member. -/
theorem read_object (members : List (String × TraceRecord.Field)) :
    read (object members) =
      some (.object (members.map fun (name, field) => (name, .ofField field))) := by
  obtain ⟨depth, length⟩ : ∃ depth, (object members).length + 1 = depth + 3 :=
    ⟨(joined (members.map fun (name, field) => string name ++ [':', ' '] ++ value field)).length,
      by simp [object]⟩
  rw [read, length, readValue_object]
  rfl

end BusScript.Trace.Json
