import BusScript.Number.Integer
import BusScript.Proofs.Number.Spelled
import BusScript.Proofs.Text.Layout
import BusScript.Proofs.Text.Trimming

/-!
# Integer literals to the base sixteen

What is read as an integer to the base sixteen, where no blanks are around: digits with single
underscores between them (`Grouped`), of which decimal digits may be of any script; a `0x` in front
of them, which one underscore may follow (`Unsigned`); and one sign in front of all (`Numeral`).
Exactly these texts are read, each as the integer that it spells.
-/

namespace BusScript.Number

open Text (Solid digitValue? forall_of_all isBlank)

/-! ## Digits of all scripts -/

/-- A digit to the base sixteen: a hexadecimal digit, or a decimal digit of any script. -/
def IsNumeralDigit (c : Char) (digit : ℕ) : Prop :=
  (IsHexDigit c ∧ hexValue c = digit) ∨ digitValue? c = some digit

instance (c : Char) (digit : ℕ) : Decidable (IsNumeralDigit c digit) :=
  inferInstanceAs (Decidable (_ ∨ _))

theorem digitValue?_lt {c : Char} {digit : ℕ} (read : digitValue? c = some digit) : digit < 10 := by
  unfold digitValue? at read
  obtain ⟨start, found, rfl⟩ := Option.map_eq_some_iff.mp read
  have range := List.find?_some found
  rw [Bool.and_eq_true, decide_eq_true_eq, decide_eq_true_eq] at range
  omega

/-- What holds of the characters below a bound holds of each of them. -/
theorem ascii_cases {P : Char → Prop} (table : ∀ n < 127, P (Char.ofNat n)) {c : Char}
    (low : c.toNat < 127) : P c := by
  have found := table c.toNat low
  rwa [Char.ofNat_toNat] at found

theorem asciiNumeral_of_low {c : Char} (low : c.toNat < 127) : asciiNumeral c = c :=
  if_pos low

/-- A character beyond ASCII that is no blank reads as its decimal digit or as a question mark. -/
theorem asciiNumeral_of_high {c : Char} (high : ¬c.toNat < 127) (solid : isBlank c = false) :
    asciiNumeral c = (digitValue? c).elim '?' fun digit => Char.ofNat (48 + digit) := by
  have filled : isWideBlank c = false := by
    by_contra wide
    rw [Bool.not_eq_false] at wide
    have blank : isBlank c = true := by
      unfold isWideBlank at wide
      unfold isBlank
      simp only [Bool.or_eq_true] at wide ⊢
      tauto
    rw [solid] at blank
    cases blank
  unfold asciiNumeral
  rw [if_neg high, if_neg (by simp [filled])]
  cases digitValue? c <;> rfl

theorem asciiNumeral_cases {c : Char} (solid : isBlank c = false) :
    (c.toNat < 127 ∧ asciiNumeral c = c) ∨ asciiNumeral c = '?' ∨
      ∃ digit < 10, asciiNumeral c = Char.ofNat (48 + digit) := by
  by_cases low : c.toNat < 127
  · exact .inl ⟨low, asciiNumeral_of_low low⟩
  · rw [asciiNumeral_of_high low solid]
    cases read : digitValue? c with
    | none => exact .inr (.inl rfl)
    | some digit => exact .inr (.inr ⟨digit, digitValue?_lt read, rfl⟩)

/-- The marks of a literal, which are no digits and stand for themselves alone. -/
def IsMark (c : Char) : Prop :=
  c ∈ ['-', '+', '_', 'x', 'X']

instance (c : Char) : Decidable (IsMark c) :=
  inferInstanceAs (Decidable (c ∈ _))

theorem not_isNumeralDigit_of_isMark {c : Char} (mark : IsMark c) (value : ℕ) :
    ¬IsNumeralDigit c value := by
  have table : ∀ mark ∈ ['-', '+', '_', 'x', 'X'], ¬IsHexDigit mark ∧ digitValue? mark = none :=
    forall_of_all (by decide)
  rintro (⟨digit, -⟩ | read)
  · exact (table c mark).1 digit
  · rw [(table c mark).2] at read
    cases read

theorem asciiNumeral_eq_mark_iff {c mark : Char} (is : IsMark mark) (solid : isBlank c = false) :
    asciiNumeral c = mark ↔ c = mark := by
  have table : ∀ mark ∈ ['-', '+', '_', 'x', 'X'], asciiNumeral mark = mark ∧ mark ≠ '?' ∧
      ∀ digit < 10, mark ≠ Char.ofNat (48 + digit) := forall_of_all (by decide)
  obtain ⟨self, query, digits⟩ := table mark is
  constructor
  · intro read
    rcases asciiNumeral_cases solid with ⟨-, same⟩ | unknown | ⟨digit, small, same⟩
    · exact same.symm.trans read
    · exact absurd (read.symm.trans unknown) query
    · exact absurd (read.symm.trans same) (digits digit small)
  · rintro rfl
    exact self

theorem hexDigit?_asciiNumeral_eq_some_iff {c : Char} {digit : ℕ} (solid : isBlank c = false) :
    hexDigit? (asciiNumeral c) = some digit ↔ IsNumeralDigit c digit := by
  unfold IsNumeralDigit
  rw [← hexDigit?_eq_some_iff]
  by_cases low : c.toNat < 127
  · have table : ∀ n < 127, ∀ digit ∈ digitValue? (Char.ofNat n),
        hexDigit? (Char.ofNat n) = some digit := by decide +kernel
    rw [asciiNumeral_of_low low]
    constructor
    · exact .inl
    · rintro (read | read)
      · exact read
      · exact ascii_cases (P := fun c => ∀ digit ∈ digitValue? c, hexDigit? c = some digit) table
          low digit read
  · have absent : hexDigit? c ≠ some digit := fun read => by
      have := toNat_lt_of_hexDigit? read
      omega
    rw [asciiNumeral_of_high low solid]
    simp only [absent, false_or]
    cases read : digitValue? c with
    | none => simp [show hexDigit? '?' = none by decide]
    | some d =>
      have table : ∀ d < 10, hexDigit? (Char.ofNat (48 + d)) = some d := by decide
      show hexDigit? (Char.ofNat (48 + d)) = some digit ↔ some d = some digit
      rw [table d (digitValue?_lt read)]

theorem hexDigit?_eq_zero_iff {c : Char} : hexDigit? c = some 0 ↔ c = '0' := by
  constructor
  · intro read
    exact hexDigit?_cases (P := fun c digit => digit = 0 → c = '0') (by decide) read rfl
  · rintro rfl
    rfl

/-- Nothing is trimmed of a literal without blanks. -/
theorem trimNumeral_of_solid {text : List Char} (solid : Solid text) :
    trimNumeral (String.ofList text) = text.map asciiNumeral := by
  have low : ∀ n < 127, isBlank (Char.ofNat n) = false →
      isNumberBlank (Char.ofNat n) = false := by decide
  have digits : ∀ digit < 10, isNumberBlank (Char.ofNat (48 + digit)) = false := by decide
  have filled : ∀ c ∈ text.map asciiNumeral, isNumberBlank c = false := by
    intro c member
    obtain ⟨raw, inside, rfl⟩ := List.mem_map.mp member
    have solid := solid raw inside
    rcases asciiNumeral_cases solid with ⟨ascii, same⟩ | unknown | ⟨digit, small, same⟩
    · rw [same]
      exact ascii_cases (P := fun c => isBlank c = false → isNumberBlank c = false) low ascii solid
    · rw [unknown]
      rfl
    · rw [same]
      exact digits digit small
  have bare : Text.Bare isNumberBlank (text.map asciiNumeral) :=
    ⟨fun c first => filled c (List.mem_of_head? first),
      fun c last => filled c (List.mem_of_getLast? last)⟩
  have whole := @Text.trim_of_bare _ [] _ [] nofun bare nofun
  rw [List.nil_append, List.append_nil] at whole
  unfold trimNumeral
  rw [String.toList_ofList]
  exact whole

/-! ## Groups of digits -/

/-- Digits with single underscores between them, and the values of the digits. -/
inductive Grouped (digit : Char → ℕ → Prop) : List Char → List ℕ → Prop
  | last {c : Char} {value : ℕ} : digit c value → Grouped digit [c] [value]
  | next {c : Char} {value : ℕ} {text : List Char} {values : List ℕ} :
      digit c value → Grouped digit text values → Grouped digit (c :: text) (value :: values)
  | apart {c : Char} {value : ℕ} {text : List Char} {values : List ℕ} :
      digit c value → Grouped digit text values →
        Grouped digit (c :: '_' :: text) (value :: values)

/-- Digits in groups start with a digit. -/
theorem Grouped.exists_cons {digit : Char → ℕ → Prop} {text : List Char} {values : List ℕ}
    (grouped : Grouped digit text values) :
    ∃ c rest value, text = c :: rest ∧ digit c value := by
  cases grouped with
  | last read => exact ⟨_, _, _, rfl, read⟩
  | next read => exact ⟨_, _, _, rfl, read⟩
  | apart read => exact ⟨_, _, _, rfl, read⟩

/-- Groups are read character by character. -/
theorem grouped_map_iff {digit other : Char → ℕ → Prop} {change : Char → Char} {text : List Char}
    (same : ∀ c ∈ text, ∀ value, digit (change c) value ↔ other c value)
    (mark : ∀ c ∈ text, change c = '_' ↔ c = '_') {values : List ℕ} :
    Grouped digit (text.map change) values ↔ Grouped other text values := by
  constructor
  · intro grouped
    generalize changed : text.map change = image at grouped
    induction grouped generalizing text with
    | last read =>
      obtain ⟨c, rest, rfl, rfl, empty⟩ := List.map_eq_cons_iff.mp changed
      rw [List.map_eq_nil_iff.mp empty]
      exact .last ((same c List.mem_cons_self _).mp read)
    | next read _ ih =>
      obtain ⟨c, rest, rfl, rfl, behind⟩ := List.map_eq_cons_iff.mp changed
      refine .next ((same c List.mem_cons_self _).mp read) (ih ?_ ?_ behind)
      · exact fun d member => same d (List.mem_cons_of_mem c member)
      · exact fun d member => mark d (List.mem_cons_of_mem c member)
    | apart read _ ih =>
      obtain ⟨c, more, rfl, rfl, behind⟩ := List.map_eq_cons_iff.mp changed
      obtain ⟨d, rest, rfl, under, behind⟩ := List.map_eq_cons_iff.mp behind
      rw [(mark d (by simp)).mp under]
      refine .apart ((same c List.mem_cons_self _).mp read) (ih ?_ ?_ behind)
      · exact fun e member => same e (by simp [member])
      · exact fun e member => mark e (by simp [member])
  · intro grouped
    induction grouped with
    | last read => exact .last ((same _ List.mem_cons_self _).mpr read)
    | next read _ ih =>
      refine .next ((same _ List.mem_cons_self _).mpr read) (ih ?_ ?_)
      · exact fun d member => same d (List.mem_cons_of_mem _ member)
      · exact fun d member => mark d (List.mem_cons_of_mem _ member)
    | apart read _ ih =>
      rw [List.map_cons, List.map_cons, (mark '_' (by simp)).mpr rfl]
      refine .apart ((same _ List.mem_cons_self _).mpr read) (ih ?_ ?_)
      · exact fun e member => same e (by simp [member])
      · exact fun e member => mark e (by simp [member])

theorem digitOf?_sixteen (c : Char) : digitOf? .sixteen c = hexDigit? c := by
  unfold digitOf?
  cases read : hexDigit? c with
  | none => rfl
  | some digit => exact if_pos (hexDigit?_lt read)

/-- The digits of a group in front of those of the groups behind it. -/
def joinGroup (group : List Char) (behind : Option (List ℕ)) : Option (List ℕ) := do
  let digits ← group.mapM hexDigit?
  if digits.isEmpty then none else return digits ++ (← behind)

theorem groupedDigits?_eq (text : List Char) :
    groupedDigits? .sixteen text = (text.splitOn '_').foldr joinGroup (some []) := by
  unfold groupedDigits?
  rw [funext digitOf?_sixteen]
  rfl

theorem joinGroup_singleton (c : Char) (behind : Option (List ℕ)) :
    joinGroup [c] behind = (hexDigit? c).bind fun digit => behind.map (digit :: ·) := by
  unfold joinGroup
  cases read : hexDigit? c <;> cases behind <;> simp [read]

theorem joinGroup_cons {c : Char} {group : List Char} (some : group ≠ [])
    (behind : Option (List ℕ)) :
    joinGroup (c :: group) behind =
      (hexDigit? c).bind fun digit => (joinGroup group behind).map (digit :: ·) := by
  obtain ⟨d, group, rfl⟩ := List.exists_cons_of_ne_nil some
  unfold joinGroup
  cases read : hexDigit? c with
  | none => simp [read]
  | some digit =>
    cases more : hexDigit? d with
    | none => simp [read, more]
    | some other => cases rest : group.mapM hexDigit? <;> cases behind <;> simp [read, more, rest]

theorem splitOn_underscore (rest : List Char) :
    ('_' :: rest).splitOn '_' = [] :: rest.splitOn '_' := by
  rw [List.splitOn_eq_splitOnP, List.splitOnP_cons_eq_if_modifyHead, if_pos (by decide)]
  rfl

theorem splitOn_cons_of_ne {c : Char} (other : c ≠ '_') (rest : List Char) :
    (c :: rest).splitOn '_' = (rest.splitOn '_').modifyHead (c :: ·) := by
  rw [List.splitOn_eq_splitOnP, List.splitOnP_cons_eq_if_modifyHead, if_neg (by simpa using other)]
  rfl

theorem groupedDigits?_underscore (rest : List Char) :
    groupedDigits? .sixteen ('_' :: rest) = none := by
  rw [groupedDigits?_eq, splitOn_underscore]
  rfl

theorem groupedDigits?_singleton {c : Char} (other : c ≠ '_') :
    groupedDigits? .sixteen [c] = (hexDigit? c).map ([·]) := by
  rw [groupedDigits?_eq, splitOn_cons_of_ne other]
  exact (joinGroup_singleton c (some [])).trans (by cases hexDigit? c <;> rfl)

theorem groupedDigits?_apart {c : Char} (other : c ≠ '_') (rest : List Char) :
    groupedDigits? .sixteen (c :: '_' :: rest) =
      (hexDigit? c).bind fun digit => (groupedDigits? .sixteen rest).map (digit :: ·) := by
  rw [groupedDigits?_eq, groupedDigits?_eq, splitOn_cons_of_ne other, splitOn_underscore]
  exact joinGroup_singleton c _

theorem groupedDigits?_next {c d : Char} (other : c ≠ '_') (also : d ≠ '_') (rest : List Char) :
    groupedDigits? .sixteen (c :: d :: rest) =
      (hexDigit? c).bind fun digit => (groupedDigits? .sixteen (d :: rest)).map (digit :: ·) := by
  rw [groupedDigits?_eq, groupedDigits?_eq, splitOn_cons_of_ne other, splitOn_cons_of_ne also]
  obtain ⟨group, groups, split⟩ := List.exists_cons_of_ne_nil (List.splitOnP_ne_nil (· == '_') rest)
  rw [List.splitOn_eq_splitOnP, split]
  exact joinGroup_cons (List.cons_ne_nil d group) _

/-- The digits that a text of groups gives are the values of the digits in it. -/
theorem groupedDigits?_eq_some_iff {text : List Char} {values : List ℕ} :
    groupedDigits? .sixteen text = some values ↔
      Grouped (fun c value => hexDigit? c = some value) text values := by
  have digit {c : Char} {value : ℕ} (read : hexDigit? c = some value) : c ≠ '_' := by
    rintro rfl
    cases read
  constructor
  · intro read
    induction text using List.twoStepInduction generalizing values with
    | nil => cases read
    | singleton c =>
      by_cases underscore : c = '_'
      · rw [underscore, groupedDigits?_underscore] at read
        cases read
      · rw [groupedDigits?_singleton underscore, Option.map_eq_some_iff] at read
        obtain ⟨value, read, rfl⟩ := read
        exact .last read
    | cons_cons c d rest apart next =>
      by_cases first : c = '_'
      · rw [first, groupedDigits?_underscore] at read
        cases read
      by_cases second : d = '_'
      · rw [second, groupedDigits?_apart first, Option.bind_eq_some_iff] at read
        obtain ⟨value, read, more⟩ := read
        obtain ⟨values, behind, rfl⟩ := Option.map_eq_some_iff.mp more
        rw [second]
        exact .apart read (apart behind)
      · rw [groupedDigits?_next first second, Option.bind_eq_some_iff] at read
        obtain ⟨value, read, more⟩ := read
        obtain ⟨values, behind, rfl⟩ := Option.map_eq_some_iff.mp more
        exact .next read (next d behind)
  · intro grouped
    induction grouped with
    | last read => rw [groupedDigits?_singleton (digit read), read]; rfl
    | next read behind ih =>
      obtain ⟨d, rest, other, rfl, first⟩ := behind.exists_cons
      rw [groupedDigits?_next (digit read) (digit first), read, ih]
      rfl
    | apart read _ ih => rw [groupedDigits?_apart (digit read), read, ih]; rfl

/-! ## Literals -/

/-- A literal without a sign: digits in groups, with or without a `0x` in front. The zero of the
mark is one of any script. -/
inductive Unsigned : List Char → ℕ → Prop
  | plain {text : List Char} {values : List ℕ} :
      Grouped IsNumeralDigit text values → Unsigned text (Nat.ofDigits 16 values.reverse)
  | marked {zero x : Char} {text : List Char} {values : List ℕ} :
      IsNumeralDigit zero 0 → x = 'x' ∨ x = 'X' → Grouped IsNumeralDigit text values →
        Unsigned (zero :: x :: text) (Nat.ofDigits 16 values.reverse)
  | markedApart {zero x : Char} {text : List Char} {values : List ℕ} :
      IsNumeralDigit zero 0 → x = 'x' ∨ x = 'X' → Grouped IsNumeralDigit text values →
        Unsigned (zero :: x :: '_' :: text) (Nat.ofDigits 16 values.reverse)

/-- A literal and the integer that it spells. -/
inductive Numeral : List Char → ℤ → Prop
  | unsigned {text : List Char} {n : ℕ} : Unsigned text n → Numeral text n
  | plus {text : List Char} {n : ℕ} : Unsigned text n → Numeral ('+' :: text) n
  | minus {text : List Char} {n : ℕ} : Unsigned text n → Numeral ('-' :: text) (-n)

/-- The number of a literal without its sign. -/
def unsigned? (text : List Char) : Option ℕ :=
  (groupedDigits? .sixteen (dropHexMark text)).map (ofDigits 16)

theorem dropHexMark_cons (c x : Char) (rest : List Char) :
    dropHexMark (c :: x :: rest) =
      if c = '0' ∧ (x = 'x' ∨ x = 'X') then
        if rest.head? = some '_' then rest.tail else rest
      else c :: x :: rest := by
  unfold dropHexMark
  split
  · rename_i same
    cases same
    by_cases mark : x = 'x' ∨ x = 'X'
    · rw [if_pos mark, if_pos ⟨rfl, mark⟩]
      split
      · rfl
      · rename_i other
        rw [if_neg]
        intro first
        obtain ⟨more, rfl⟩ := List.head?_eq_some_iff.mp first
        exact other more rfl
    · rw [if_neg mark, if_neg (fun both => mark both.2)]
  · rename_i other
    rw [if_neg]
    rintro ⟨rfl, -⟩
    exact other x rest rfl

theorem Grouped.inRun {text : List Char} {values : List ℕ}
    (grouped : Grouped (fun c value => hexDigit? c = some value) text values) :
    ∀ c ∈ text, ((digitOf? .sixteen c).isSome || c == '_') = true := by
  have run {c : Char} {value : ℕ} (read : hexDigit? c = some value) :
      ((digitOf? .sixteen c).isSome || c == '_') = true := by
    rw [digitOf?_sixteen, read]
    rfl
  induction grouped with
  | last read => exact List.forall_mem_singleton.mpr (run read)
  | next read _ ih => exact List.forall_mem_cons.mpr ⟨run read, ih⟩
  | apart read _ ih =>
    exact List.forall_mem_cons.mpr ⟨run read, List.forall_mem_cons.mpr ⟨by decide, ih⟩⟩

/-- A literal is its sign and its number. -/
theorem readInteger_eq_ok_iff_unsigned {text : String} {value : ℤ} :
    readInteger .sixteen text = .ok value ↔
      ∃ n, unsigned? (splitSign (trimNumeral text)).2 = some n ∧
        value = if (splitSign (trimNumeral text)).1 then -(n : ℤ) else n := by
  unfold readInteger unsigned?
  dsimp only
  rw [if_pos rfl]
  generalize dropHexMark (splitSign (trimNumeral text)).2 = marked
  generalize (splitSign (trimNumeral text)).1 = negative
  constructor
  · intro read
    split at read
    · cases read
    · rename_i values front
      rw [if_neg (by simp)] at read
      split at read
      · cases read
      · rename_i ends
        simp only [Bool.not_eq_true', Bool.not_eq_false, List.isEmpty_iff] at ends
        rw [List.takeWhile_eq_self_iff.mpr (List.dropWhile_eq_nil_iff.mp ends)] at front
        cases read
        exact ⟨_, Option.map_eq_some_iff.mpr ⟨values, front, rfl⟩, rfl⟩
  · rintro ⟨n, some, rfl⟩
    obtain ⟨values, read, rfl⟩ := Option.map_eq_some_iff.mp some
    have run := (groupedDigits?_eq_some_iff.mp read).inRun
    rw [List.takeWhile_eq_self_iff.mpr run, List.dropWhile_eq_nil_iff.mpr run, read]
    dsimp only
    rw [if_neg (by simp), if_neg (by decide)]
    rfl

/-- Digits in groups do not start with another character. -/
theorem not_grouped_of_other {c : Char} (other : ∀ value, ¬IsNumeralDigit c value)
    {rest : List Char} {values : List ℕ} : ¬Grouped IsNumeralDigit (c :: rest) values := by
  intro grouped
  obtain ⟨d, _, value, same, digit⟩ := grouped.exists_cons
  cases same
  exact other value digit

/-- The marks of the base are seen in a literal, and no digit in front of an `x` is taken for
others. -/
theorem unsigned_cons_iff {c x : Char} {rest : List Char} {n : ℕ} :
    Unsigned (c :: x :: rest) n ↔
      ∃ values, n = Nat.ofDigits 16 values.reverse ∧
        if IsNumeralDigit c 0 ∧ (x = 'x' ∨ x = 'X') then
          if rest.head? = some '_' then Grouped IsNumeralDigit rest.tail values
          else Grouped IsNumeralDigit rest values
        else Grouped IsNumeralDigit (c :: x :: rest) values := by
  constructor
  · intro unsigned
    cases unsigned with
    | @plain _ values grouped =>
      refine ⟨values, rfl, ?_⟩
      rw [if_neg]
      · exact grouped
      · rintro ⟨-, mark⟩
        have is : IsMark x := by rcases mark with rfl | rfl <;> decide
        cases grouped with
        | next _ behind => exact not_grouped_of_other (not_isNumeralDigit_of_isMark is) behind
        | apart => rcases mark with mark | mark <;> cases mark
    | @marked _ _ _ values zero mark grouped =>
      refine ⟨values, rfl, ?_⟩
      rw [if_pos ⟨zero, mark⟩, if_neg]
      · exact grouped
      · intro under
        obtain ⟨more, rfl⟩ := List.head?_eq_some_iff.mp under
        exact not_grouped_of_other (not_isNumeralDigit_of_isMark (by decide)) grouped
    | @markedApart _ _ _ values zero mark grouped =>
      exact ⟨values, rfl, by rw [if_pos ⟨zero, mark⟩]; exact grouped⟩
  · rintro ⟨values, rfl, grouped⟩
    split at grouped
    · rename_i marked
      obtain ⟨zero, mark⟩ := marked
      split at grouped
      · rename_i under
        obtain ⟨more, rfl⟩ := List.head?_eq_some_iff.mp under
        exact .markedApart zero mark grouped
      · exact .marked zero mark grouped
    · exact .plain grouped

/-- A text of one character or none has no mark in front. -/
theorem short_unsigned {text : List Char} (short : text.length < 2) :
    dropHexMark text = text ∧ ∀ n, Unsigned text n ↔
      ∃ values, n = Nat.ofDigits 16 values.reverse ∧ Grouped IsNumeralDigit text values := by
  constructor
  · unfold dropHexMark
    split
    · rw [List.length_cons, List.length_cons] at short
      omega
    · rfl
  · intro n
    constructor
    · intro unsigned
      cases unsigned with
      | plain grouped => exact ⟨_, rfl, grouped⟩
      | marked | markedApart =>
        simp only [List.length_cons] at short
        omega
    · rintro ⟨values, rfl, grouped⟩
      exact .plain grouped

/-- What is read of a literal without a sign, in ASCII, is what it spells. -/
theorem unsigned?_eq_some_iff {text : List Char} (solid : Solid text) {n : ℕ} :
    unsigned? (text.map asciiNumeral) = some n ↔ Unsigned text n := by
  have groups {part : List Char} (within : part ⊆ text) :
      (groupedDigits? .sixteen (part.map asciiNumeral)).map (ofDigits 16) = some n ↔
        ∃ values, n = Nat.ofDigits 16 values.reverse ∧ Grouped IsNumeralDigit part values := by
    simp only [Option.map_eq_some_iff, groupedDigits?_eq_some_iff, ofDigits_eq]
    refine exists_congr fun values => ?_
    rw [and_comm, eq_comm]
    refine and_congr_right fun _ => grouped_map_iff ?_ ?_
    · exact fun c member value => hexDigit?_asciiNumeral_eq_some_iff (solid c (within member))
    · exact fun c member => asciiNumeral_eq_mark_iff (by decide) (solid c (within member))
  unfold unsigned?
  by_cases short : text.length < 2
  · have mapped : (text.map asciiNumeral).length < 2 := by rwa [List.length_map]
    rw [(short_unsigned mapped).1, (short_unsigned short).2, groups (List.Subset.refl _)]
  · rcases text with - | ⟨c, - | ⟨x, rest⟩⟩
    · exact absurd (by decide) short
    · exact absurd (by simp) short
    have marked : (asciiNumeral c = '0' ∧ (asciiNumeral x = 'x' ∨ asciiNumeral x = 'X')) ↔
        IsNumeralDigit c 0 ∧ (x = 'x' ∨ x = 'X') := by
      have blank := solid x (by simp)
      rw [← hexDigit?_asciiNumeral_eq_some_iff (solid c List.mem_cons_self), hexDigit?_eq_zero_iff,
        asciiNumeral_eq_mark_iff (by decide) blank, asciiNumeral_eq_mark_iff (by decide) blank]
    have under : (rest.map asciiNumeral).head? = some '_' ↔ rest.head? = some '_' := by
      rcases rest with - | ⟨d, rest⟩
      · rfl
      · simpa using asciiNumeral_eq_mark_iff (by decide) (solid d (by simp))
    have behind : rest ⊆ c :: x :: rest := fun d member => by simp [member]
    rw [List.map_cons, List.map_cons, dropHexMark_cons, unsigned_cons_iff]
    simp only [marked, under]
    split
    · split
      · rw [← List.map_tail]
        exact groups fun d member => behind (List.mem_of_mem_tail member)
      · exact groups behind
    · exact groups (List.Subset.refl _)

/-- A literal without a sign starts with a digit. -/
theorem not_unsigned_of_other {c : Char} (other : ∀ value, ¬IsNumeralDigit c value)
    {rest : List Char} {n : ℕ} : ¬Unsigned (c :: rest) n := by
  intro unsigned
  cases unsigned with
  | plain grouped => exact not_grouped_of_other other grouped
  | marked zero | markedApart zero => exact other 0 zero

theorem numeral_cons_iff {c : Char} {rest : List Char} {value : ℤ} :
    Numeral (c :: rest) value ↔
      if c = '-' then ∃ n, Unsigned rest n ∧ value = -(n : ℤ)
      else if c = '+' then ∃ n, Unsigned rest n ∧ value = (n : ℤ)
      else ∃ n, Unsigned (c :: rest) n ∧ value = (n : ℤ) := by
  constructor
  · intro numeral
    cases numeral with
    | @unsigned _ n unsigned =>
      rw [if_neg, if_neg]
      · exact ⟨n, unsigned, rfl⟩
      · rintro rfl
        exact not_unsigned_of_other (not_isNumeralDigit_of_isMark (by decide)) unsigned
      · rintro rfl
        exact not_unsigned_of_other (not_isNumeralDigit_of_isMark (by decide)) unsigned
    | @plus _ n unsigned => exact ⟨n, unsigned, rfl⟩
    | @minus _ n unsigned => exact ⟨n, unsigned, rfl⟩
  · intro signed
    split at signed
    · rename_i minus
      obtain ⟨n, unsigned, rfl⟩ := signed
      exact minus ▸ .minus unsigned
    · split at signed
      · rename_i plus
        obtain ⟨n, unsigned, rfl⟩ := signed
        exact plus ▸ .plus unsigned
      · obtain ⟨n, unsigned, rfl⟩ := signed
        exact .unsigned unsigned

theorem splitSign_cons (c : Char) (rest : List Char) :
    splitSign (c :: rest) =
      if c = '-' then (true, rest) else if c = '+' then (false, rest) else (false, c :: rest) := by
  unfold splitSign
  split
  · rename_i same
    cases same
    rfl
  · rename_i same
    cases same
    rfl
  · rename_i minus plus
    rw [if_neg, if_neg]
    · rintro rfl
      exact plus rest rfl
    · rintro rfl
      exact minus rest rfl

/-- The integers to the base sixteen that are read of texts without blanks. -/
theorem readInteger_eq_ok_iff {text : List Char} (solid : Solid text) {value : ℤ} :
    readInteger .sixteen (String.ofList text) = .ok value ↔ Numeral text value := by
  rw [readInteger_eq_ok_iff_unsigned, trimNumeral_of_solid solid]
  rcases text with - | ⟨c, rest⟩
  · constructor
    · rintro ⟨n, read, -⟩
      cases read
    · rintro ⟨⟨grouped⟩⟩
      cases grouped
  · have blank := solid c List.mem_cons_self
    have behind : Solid rest := fun d member => solid d (List.mem_cons_of_mem c member)
    rw [numeral_cons_iff, List.map_cons, splitSign_cons]
    simp only [asciiNumeral_eq_mark_iff (show IsMark '-' by decide) blank,
      asciiNumeral_eq_mark_iff (show IsMark '+' by decide) blank]
    split
    · simp only [unsigned?_eq_some_iff behind, if_pos]
    · split
      · simp only [unsigned?_eq_some_iff behind, if_neg, Bool.false_eq_true, not_false_eq_true]
      · simp only [← List.map_cons, unsigned?_eq_some_iff solid, if_neg, Bool.false_eq_true,
          not_false_eq_true]

end BusScript.Number
