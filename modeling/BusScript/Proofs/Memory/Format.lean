import BusScript.Proofs.Memory.Images
import BusScript.Proofs.Memory.Marks
import BusScript.Proofs.Number.Numeral

/-!
# The format of image texts

An item is a word of hexadecimal digits and underscores, or `@` in front of such a word
(`InFormat`). What is accepted as an item is what can be read as an integer (`Spelled`), and that is
another thing: signs, a `0x` and the digits of other scripts are let through, while the underscores
of a place are not left out. Where items of the one kind are not of the other is said exactly
(`ofText_accepts`).
-/

namespace BusScript.Image

open Number Text

/-! ## What items spell -/

/-- An item and what it spells: the literal behind an `@`, or the literal that is left of a word
without its underscores. -/
inductive Spelled : List Char → Item → Prop
  | place {text : List Char} {index : ℤ} :
      Numeral text index → Spelled ('@' :: text) (.place index)
  | word {text : List Char} {value : ℤ} :
      Numeral (text.filter (· != '_')) value → Spelled text (.word value)

theorem not_isNumeralDigit_at (value : ℕ) : ¬IsNumeralDigit '@' value := by
  have table : ¬IsHexDigit '@' ∧ digitValue? '@' = none := by decide
  rintro (⟨digit, -⟩ | read)
  · exact table.1 digit
  · rw [table.2] at read
    cases read

theorem not_numeral_at {rest : List Char} {value : ℤ} : ¬Numeral ('@' :: rest) value := by
  rw [numeral_cons_iff, if_neg (by decide), if_neg (by decide)]
  rintro ⟨n, unsigned, -⟩
  exact not_unsigned_of_other not_isNumeralDigit_at unsigned

/-- What is read of an item is what it spells. -/
theorem ofText?_eq_some_iff {text : List Char} (solid : Solid text) {item : Item} :
    Item.ofText? text = some item ↔ Spelled text item := by
  have read {part : List Char} (solid : Solid part) {value : ℤ} :
      (readInteger .sixteen (String.ofList part)).toOption = some value ↔ Numeral part value := by
    rw [← readInteger_eq_ok_iff solid]
    cases readInteger .sixteen (String.ofList part) <;> simp [Except.toOption]
  unfold Item.ofText?
  split
  · rename_i index
    have behind : Solid index := fun c member => solid c (List.mem_cons_of_mem _ member)
    simp only [Option.map_eq_some_iff, read behind]
    constructor
    · rintro ⟨value, numeral, rfl⟩
      exact .place numeral
    · rintro (numeral | numeral)
      · exact ⟨_, numeral, rfl⟩
      · rw [List.filter_cons_of_pos (by decide)] at numeral
        exact absurd numeral not_numeral_at
  · rename_i other
    have left : Solid (text.filter (· != '_')) := fun c member =>
      solid c (List.mem_of_mem_filter member)
    simp only [Option.map_eq_some_iff, read left]
    constructor
    · rintro ⟨value, numeral, rfl⟩
      exact .word numeral
    · rintro (numeral | numeral)
      · exact absurd rfl (other _)
      · exact ⟨_, numeral, rfl⟩

/-- The item can be read. -/
def Readable (item : List Char) : Prop :=
  ∃ spelled, Spelled item spelled

/-! ## The format -/

/-- Hexadecimal digits, at least one, and underscores anywhere among them. -/
structure IsHexWord (text : List Char) : Prop where
  characters : ∀ c ∈ text, IsHexDigit c ∨ c = '_'
  digit : ∃ c ∈ text, IsHexDigit c

theorem isHexWord_iff {text : List Char} :
    IsHexWord text ↔ text.all (fun c => IsHexDigit c ∨ c = '_') = true ∧
      text.any (fun c => IsHexDigit c) = true := by
  rw [List.all_eq_true, List.any_eq_true]
  simp only [decide_eq_true_eq]
  exact ⟨fun word => ⟨word.characters, word.digit⟩, fun both => ⟨both.1, both.2⟩⟩

instance (text : List Char) : Decidable (IsHexWord text) :=
  decidable_of_iff' _ isHexWord_iff

/-- An item as the format has it. -/
inductive InFormat : List Char → Prop
  | word {text : List Char} : IsHexWord text → InFormat text
  | place {text : List Char} : IsHexWord text → InFormat ('@' :: text)

/-- Underscores stand one at a time, and neither first nor last. -/
structure Parted (text : List Char) : Prop where
  first : text.head? ≠ some '_'
  last : text.getLast? ≠ some '_'
  single : text.IsChain fun c d => ¬(c = '_' ∧ d = '_')

theorem Parted.tail {c : Char} {rest : List Char} (parted : Parted (c :: rest))
    (next : rest.head? ≠ some '_') : Parted rest where
  first := next
  last same := by
    apply parted.last
    cases rest with
    | nil => cases same
    | cons d rest => rwa [List.getLast?_cons_cons]
  single := parted.single.tail

/-- Digits with underscores one at a time between them are digits in groups. -/
theorem exists_grouped {text : List Char} (filled : text ≠ []) (parted : Parted text)
    (characters : ∀ c ∈ text, IsHexDigit c ∨ c = '_') :
    ∃ values, Grouped IsNumeralDigit text values := by
  induction text using List.twoStepInduction with
  | nil => exact absurd rfl filled
  | singleton c =>
    rcases characters c List.mem_cons_self with digit | rfl
    · exact ⟨_, .last (.inl ⟨digit, rfl⟩)⟩
    · exact absurd rfl parted.first
  | cons_cons c d rest apart next =>
    obtain ⟨first, behind⟩ := List.forall_mem_cons.mp characters
    have digit : IsHexDigit c := first.resolve_right fun under => parted.first (by rw [under]; rfl)
    by_cases under : d = '_'
    · subst under
      have more : rest ≠ [] := by
        rintro rfl
        exact parted.last rfl
      obtain ⟨e, others, rfl⟩ := List.exists_cons_of_ne_nil more
      obtain ⟨-, single⟩ := List.isChain_cons_cons.mp parted.single
      obtain ⟨apart_next, single⟩ := List.isChain_cons_cons.mp single
      have last : (e :: others).getLast? ≠ some '_' := by
        have last := parted.last
        rwa [List.getLast?_cons_cons, List.getLast?_cons_cons] at last
      have rest_parted : Parted (e :: others) :=
        ⟨fun first => apart_next ⟨rfl, Option.some.inj first⟩, last, single⟩
      obtain ⟨values, grouped⟩ := apart (List.cons_ne_nil e others) rest_parted
        (List.forall_mem_cons.mp behind).2
      exact ⟨_, .apart (.inl ⟨digit, rfl⟩) grouped⟩
    · have second : (d :: rest).head? ≠ some '_' := by simpa using under
      obtain ⟨values, grouped⟩ := next d (List.cons_ne_nil d rest) (parted.tail second) behind
      exact ⟨_, .next (.inl ⟨digit, rfl⟩) grouped⟩

theorem parted_of_grouped {text : List Char} {values : List ℕ}
    (grouped : Grouped IsNumeralDigit text values) : Parted text := by
  have digit {c : Char} {value : ℕ} (read : IsNumeralDigit c value) : c ≠ '_' := by
    rintro rfl
    exact not_isNumeralDigit_of_isMark (by decide) value read
  induction grouped with
  | last read =>
    refine ⟨?_, ?_, List.isChain_singleton _⟩
    · simpa using digit read
    · simpa using digit read
  | @next c value text values read behind ih =>
    obtain ⟨d, rest, other, rfl, first⟩ := behind.exists_cons
    refine ⟨by simpa using digit read, ?_, ?_⟩
    · rw [List.getLast?_cons_cons]
      exact ih.last
    · exact List.isChain_cons_cons.mpr ⟨fun both => digit read both.1, ih.single⟩
  | @apart c value text values read behind ih =>
    obtain ⟨d, rest, other, rfl, first⟩ := behind.exists_cons
    refine ⟨by simpa using digit read, ?_, ?_⟩
    · rw [List.getLast?_cons_cons, List.getLast?_cons_cons]
      exact ih.last
    · exact List.isChain_cons_cons.mpr ⟨fun both => digit read both.1,
        List.isChain_cons_cons.mpr ⟨fun both => digit first both.2, ih.single⟩⟩

theorem characters_of_grouped {text : List Char} {values : List ℕ}
    (grouped : Grouped IsNumeralDigit text values) :
    ∀ c ∈ text, (∃ value, IsNumeralDigit c value) ∨ c = '_' := by
  induction grouped with
  | last read => exact List.forall_mem_singleton.mpr (.inl ⟨_, read⟩)
  | next read _ ih => exact List.forall_mem_cons.mpr ⟨.inl ⟨_, read⟩, ih⟩
  | apart read _ ih =>
    exact List.forall_mem_cons.mpr ⟨.inl ⟨_, read⟩, List.forall_mem_cons.mpr ⟨.inr rfl, ih⟩⟩

/-- The characters of items in the format. -/
def IsItemCharacter (c : Char) : Prop :=
  IsHexDigit c ∨ c = '_' ∨ c = '@'

instance (c : Char) : Decidable (IsItemCharacter c) :=
  inferInstanceAs (Decidable (_ ∨ _))

/-- A literal in the characters of items is digits in groups, without a mark in front. -/
theorem grouped_of_numeral {text : List Char} {value : ℤ} (numeral : Numeral text value)
    (characters : ∀ c ∈ text, IsItemCharacter c) :
    ∃ values, Grouped IsNumeralDigit text values := by
  have marks : ∀ c ∈ ['-', '+', 'x', 'X'], ¬IsItemCharacter c := forall_of_all (by decide)
  have unmarked {c : Char} (inside : c ∈ text) (mark : c ∈ ['-', '+', 'x', 'X']) : False :=
    marks c mark (characters c inside)
  cases numeral with
  | unsigned unsigned =>
    cases unsigned with
    | plain grouped => exact ⟨_, grouped⟩
    | marked _ mark | markedApart _ mark =>
      rcases mark with rfl | rfl
      · exact (unmarked (c := 'x') (by simp) (by simp)).elim
      · exact (unmarked (c := 'X') (by simp) (by simp)).elim
  | plus => exact (unmarked (c := '+') (by simp) (by simp)).elim
  | minus => exact (unmarked (c := '-') (by simp) (by simp)).elim

/-- A literal in the characters of items is a word of the format. -/
theorem isHexWord_of_numeral {text : List Char} {value : ℤ} (numeral : Numeral text value)
    (characters : ∀ c ∈ text, IsItemCharacter c) : IsHexWord text := by
  obtain ⟨values, grouped⟩ := grouped_of_numeral numeral characters
  have hex {c : Char} (inside : c ∈ text) {value : ℕ} (digit : IsNumeralDigit c value) :
      IsHexDigit c := by
    rcases characters c inside with hex | rfl | rfl
    · exact hex
    · exact (not_isNumeralDigit_of_isMark (by decide) value digit).elim
    · exact (not_isNumeralDigit_at value digit).elim
  constructor
  · intro c inside
    exact (characters_of_grouped grouped c inside).imp_left fun ⟨_, digit⟩ => hex inside digit
  · obtain ⟨c, rest, value, rfl, digit⟩ := grouped.exists_cons
    exact ⟨c, List.mem_cons_self, hex List.mem_cons_self digit⟩

/-! ## Items of the format -/

/-- Hexadecimal digits are a literal of the number that they spell. -/
theorem numeral_of_digits {digits : List Char} (filled : digits ≠ [])
    (hex : ∀ c ∈ digits, IsHexDigit c) : Numeral digits (hexNumber digits) := by
  have grouped : Grouped IsNumeralDigit digits (digits.map hexValue) := by
    induction digits with
    | nil => exact absurd rfl filled
    | cons c rest ih =>
      obtain ⟨first, behind⟩ := List.forall_mem_cons.mp hex
      cases rest with
      | nil => exact .last (.inl ⟨first, rfl⟩)
      | cons d rest => exact .next (.inl ⟨first, rfl⟩) (ih (List.cons_ne_nil d rest) behind)
  exact .unsigned (.plain grouped)

/-- A word of the format spells the number of its digits. -/
theorem IsHexWord.spelled {text : List Char} (word : IsHexWord text) :
    Spelled text (.word (hexNumber (text.filter (· != '_')))) := by
  refine .word (numeral_of_digits ?_ fun c inside => ?_)
  · obtain ⟨c, inside, digit⟩ := word.digit
    have other : c ≠ '_' := by
      rintro rfl
      exact absurd digit (by decide)
    exact List.ne_nil_of_mem (List.mem_filter.mpr ⟨inside, bne_iff_ne.mpr other⟩)
  · obtain ⟨inside, other⟩ := List.mem_filter.mp inside
    exact (word.characters c inside).resolve_right (bne_iff_ne.mp other)

theorem IsHexWord.isItemCharacter {text : List Char} (word : IsHexWord text) :
    ∀ c ∈ text, IsItemCharacter c :=
  fun c inside => (word.characters c inside).imp_right .inl

/-- The underscores of a place are those of an integer literal. -/
theorem IsHexWord.readable_place_iff {text : List Char} (word : IsHexWord text) :
    Readable ('@' :: text) ↔ Parted text := by
  constructor
  · rintro ⟨spelled, read⟩
    cases read with
    | place numeral =>
      obtain ⟨values, grouped⟩ := grouped_of_numeral numeral word.isItemCharacter
      exact parted_of_grouped grouped
    | word numeral => exact absurd numeral not_numeral_at
  · intro parted
    obtain ⟨c, inside, -⟩ := word.digit
    obtain ⟨values, grouped⟩ := exists_grouped (List.ne_nil_of_mem inside) parted word.characters
    exact ⟨_, .place (.unsigned (.plain grouped))⟩

theorem InFormat.characters {item : List Char} (formed : InFormat item) :
    ∀ c ∈ item, IsItemCharacter c := by
  cases formed with
  | word word => exact word.isItemCharacter
  | place word => exact List.forall_mem_cons.mpr ⟨.inr (.inr rfl), word.isItemCharacter⟩

/-- What the format has is read, places with two underscores in a row or at an end excepted. -/
theorem InFormat.readable_iff {item : List Char} (formed : InFormat item) :
    Readable item ↔ ∀ place, item = '@' :: place → Parted place := by
  cases formed with
  | word word =>
    refine iff_of_true ⟨_, word.spelled⟩ ?_
    rintro place rfl
    exact absurd (word.characters '@' List.mem_cons_self) (by decide)
  | @place text word =>
    rw [word.readable_place_iff]
    constructor
    · rintro parted place same
      cases same
      exact parted
    · exact fun parted => parted text rfl

/-- What is read is of the format if its characters are. -/
theorem Readable.inFormat_iff {item : List Char} (readable : Readable item) :
    InFormat item ↔ ∀ c ∈ item, IsItemCharacter c := by
  refine ⟨InFormat.characters, fun plain => ?_⟩
  obtain ⟨spelled, read⟩ := readable
  cases read with
  | place numeral =>
    exact .place (isHexWord_of_numeral numeral (List.forall_mem_cons.mp plain).2)
  | word numeral =>
    have word := isHexWord_of_numeral numeral fun c inside =>
      plain c (List.mem_of_mem_filter inside)
    refine .word ⟨fun c inside => ?_, ?_⟩
    · by_cases under : c = '_'
      · exact .inr under
      · exact word.characters c (List.mem_filter.mpr ⟨inside, bne_iff_ne.mpr under⟩)
    · obtain ⟨c, inside, digit⟩ := word.digit
      exact ⟨c, List.mem_of_mem_filter inside, digit⟩

/-! ## Signs -/

/-- The number that an item holds. -/
def Item.number : Item → ℤ
  | .place index => index
  | .word value => value

/-- Without a minus in its text the number of an item is not negative. -/
theorem Spelled.number_nonneg {text : List Char} {item : Item} (spelled : Spelled text item)
    (unsigned : '-' ∉ text) : 0 ≤ item.number := by
  have number {part : List Char} {value : ℤ} (numeral : Numeral part value) (within : part ⊆ text) :
      0 ≤ value := by
    cases numeral with
    | unsigned | plus => exact Int.natCast_nonneg _
    | minus => exact absurd (within List.mem_cons_self) unsigned
  cases spelled with
  | place numeral => exact number numeral (List.subset_cons_self _ _)
  | word numeral => exact number numeral fun c inside => List.mem_of_mem_filter inside

theorem mem_put {index value : ℤ} {placed : List (ℤ × ℤ)} {word : ℤ × ℤ}
    (member : word ∈ put index value placed) : word = (index, value) ∨ word ∈ placed := by
  induction placed with
  | nil => exact .inl (List.mem_singleton.mp member)
  | cons first rest ih =>
    obtain ⟨other, old⟩ := first
    unfold put at member
    split at member
    · exact (List.mem_cons.mp member).imp_right (List.mem_cons_of_mem _)
    · rcases List.mem_cons.mp member with rfl | inside
      · exact .inr List.mem_cons_self
      · exact (ih inside).imp_right (List.mem_cons_of_mem _)

/-- Items that hold no negative number lay down none. -/
theorem lay_nonneg {next : ℤ} {placed : List (ℤ × ℤ)} {items : List Item} (start : 0 ≤ next)
    (lying : ∀ word ∈ placed, 0 ≤ word.1 ∧ 0 ≤ word.2) (numbers : ∀ item ∈ items, 0 ≤ item.number) :
    ∀ word ∈ lay next placed items, 0 ≤ word.1 ∧ 0 ≤ word.2 := by
  fun_induction lay next placed items with
  | case1 next placed => exact lying
  | case2 next placed index rest ih =>
    obtain ⟨first, behind⟩ := List.forall_mem_cons.mp numbers
    exact ih first lying behind
  | case3 next placed value rest ih =>
    obtain ⟨first, behind⟩ := List.forall_mem_cons.mp numbers
    refine ih (by omega) (fun word inside => ?_) behind
    rcases mem_put inside with rfl | inside
    · exact ⟨start, first⟩
    · exact lying word inside

/-! ## Texts -/

theorem readable_iff {text item : List Char} (member : item ∈ itemTexts text) :
    (∃ spelled, Item.ofText? item = some spelled) ↔ Readable item := by
  obtain ⟨mark, inside, rfl⟩ := List.mem_map.mp member
  exact exists_congr fun _ => ofText?_eq_some_iff (solid_of_mem_marks inside).2

/-- A text is accepted if all of its items can be read. -/
theorem exists_ofText_iff {text : List Char} :
    (∃ image, ofText text = .ok image) ↔ ∀ item ∈ itemTexts text, Readable item := by
  have accepted : (∃ image, ofText text = .ok image) ↔ ∃ all, items text = .ok all := by
    unfold ofText
    cases items text <;> simp [Except.map]
  rw [accepted]
  simp only [items_eq_ok_iff, exists_forall₂_iff]
  exact forall₂_congr fun item member => readable_iff member

/-- A text is rejected with the first item that cannot be read. -/
theorem ofText_eq_error_iff {text : List Char} {fault : Fault} :
    ofText text = .error fault ↔
      ∃ front number item behind, marks text = front ++ (number, item) :: behind ∧
        (∀ mark ∈ front, Readable mark.2) ∧ ¬Readable item ∧
        fault = ⟨number, String.ofList item⟩ := by
  have rejected : ofText text = .error fault ↔ items text = .error fault := by
    unfold ofText
    cases items text <;> simp [Except.map]
  rw [rejected, items_eq_error_iff]
  refine exists_congr fun front => exists_congr fun number => exists_congr fun item =>
    exists_congr fun behind => and_congr_right fun split => ?_
  have read {mark : ℕ × List Char} (inside : mark ∈ front ++ (number, item) :: behind) :
      (∃ spelled, Item.ofText? mark.2 = some spelled) ↔ Readable mark.2 := by
    rw [← split] at inside
    exact readable_iff (List.mem_map_of_mem inside)
  refine and_congr (forall₂_congr fun mark inside => read (List.mem_append_left _ inside))
    (and_congr_left fun _ => ?_)
  have bad : (∃ spelled, Item.ofText? item = some spelled) ↔ Readable item :=
    @read (number, item) (List.mem_append_right _ List.mem_cons_self)
  rw [← bad, Option.eq_none_iff_forall_ne_some, not_exists]

/-- The numbers of an accepted text without a minus are not negative. -/
theorem ofText_nonneg {text : List Char} {image : Image} (accepted : ofText text = .ok image)
    (unsigned : ∀ item ∈ itemTexts text, '-' ∉ item) :
    ∀ word ∈ image.words, 0 ≤ word.1 ∧ 0 ≤ word.2 := by
  unfold ofText at accepted
  cases read : items text with
  | error fault =>
    rw [read] at accepted
    cases accepted
  | ok all =>
    rw [read] at accepted
    cases accepted
    refine lay_nonneg le_rfl nofun fun item inside => ?_
    obtain ⟨written, member, spells⟩ := exists_of_mem_right (items_eq_ok_iff.mp read) item inside
    obtain ⟨mark, numbered, rfl⟩ := List.mem_map.mp member
    have spelled := (ofText?_eq_some_iff (solid_of_mem_marks numbered).2).mp spells
    exact spelled.number_nonneg (unsigned _ member)

/-- What image texts are accepted, and how that differs from the format. A text is accepted if all
of its items can be read, and otherwise rejected with the first that cannot and the number of its
line. Of the items in the format just those cannot be read that are places with underscores first,
last or in a row, and of the items that can be read just those are not in the format that have
characters beside hexadecimal digits, underscores and `@`. No number is negative without a minus. -/
theorem ofText_accepts (text : List Char) :
    (∀ line front, dropComment line = front ↔ IsCut line front) ∧
    ((∃ image, ofText text = .ok image) ↔ ∀ item ∈ itemTexts text, Readable item) ∧
    (∀ fault, ofText text = .error fault ↔
      ∃ front number item behind, marks text = front ++ (number, item) :: behind ∧
        (∀ mark ∈ front, Readable mark.2) ∧ ¬Readable item ∧
        fault = ⟨number, String.ofList item⟩ ∧
        fault.message = s!"line {number}: bad hex item '{String.ofList item}'") ∧
    (∀ item ∈ itemTexts text, InFormat item →
      (Readable item ↔ ∀ place, item = '@' :: place → Parted place)) ∧
    (∀ item ∈ itemTexts text, Readable item →
      (InFormat item ↔ ∀ c ∈ item, IsItemCharacter c)) ∧
    (∀ image, ofText text = .ok image → (∀ item ∈ itemTexts text, '-' ∉ item) →
      ∀ word ∈ image.words, 0 ≤ word.1 ∧ 0 ≤ word.2) := by
  refine ⟨fun _ _ => dropComment_eq_iff, exists_ofText_iff, fun fault => ?_,
    fun item _ formed => formed.readable_iff, fun item _ readable => readable.inFormat_iff,
    fun image accepted unsigned => ofText_nonneg accepted unsigned⟩
  rw [ofText_eq_error_iff]
  constructor
  · rintro ⟨front, number, item, behind, split, sound, bad, rfl⟩
    exact ⟨front, number, item, behind, split, sound, bad, rfl, rfl⟩
  · rintro ⟨front, number, item, behind, split, sound, bad, same, -⟩
    exact ⟨front, number, item, behind, split, sound, bad, same⟩

/-- A word with a sign is accepted, and its value is negative; a place of the format with an
underscore in front of its digits is rejected. -/
theorem accepts_sign_rejects_underscore :
    ofText "-1".toList = .ok ⟨[(0, -1)]⟩ ∧ ¬InFormat "-1".toList ∧
    ofText "@_10 5".toList = .error ⟨1, "@_10"⟩ ∧
    InFormat "@_10".toList ∧ InFormat "5".toList := by
  have signed : '-' ∈ "-1".toList ∧ ¬IsItemCharacter '-' := by decide
  exact ⟨by decide +kernel, fun formed => signed.2 (formed.characters '-' signed.1),
    by decide +kernel, .place (by decide), .word (by decide)⟩

end BusScript.Image
