import BusScript.Proofs.Memory.Format

/-!
# Where the words of an image text are placed

A text is laid out from hexadecimal words and places, over lines, with blanks, underscores and
comments anywhere (`Sheet`). Each word goes to its position: the place that comes last before it,
or zero, and as many places further as there are words between (`position`). The image holds at
every place the last word that went there, and lists the places in the order in which they were
first used (`ofText_places`).
-/

namespace BusScript.Image

open Number Text

/-! ## Layouts -/

/-- A text of an item: `@` and hexadecimal digits, or hexadecimal digits with underscores
anywhere. -/
inductive Written : List Char → Item → Prop
  | place {digits : List Char} : digits ≠ [] → (∀ c ∈ digits, IsHexDigit c) →
      Written ('@' :: digits) (.place (hexNumber digits))
  | word {text : List Char} : IsHexWord text →
      Written text (.word (hexNumber (text.filter (· != '_'))))

/-- A line that is laid out from item texts, with or without a comment at its end. -/
inductive Row : List (List Char) → List Char → Prop
  | plain {texts : List (List Char)} {line : List Char} :
      Laid texts line → Unbroken line → Row texts line
  | comment {texts : List (List Char)} {line comment : List Char} :
      Laid texts line → Unbroken line → Unbroken comment →
        Row texts (line ++ '/' :: '/' :: comment)

/-- A text whose lines are laid out from item texts. -/
inductive Sheet : List (List Char) → List Char → Prop
  | last {texts : List (List Char)} {line : List Char} : Row texts line → Sheet texts line
  | row {texts rest : List (List Char)} {line text : List Char} {c : Char} :
      Row texts line → IsLineBreak c → Sheet rest text → Sheet (texts ++ rest) (line ++ c :: text)

theorem mem_of_laid {texts : List (List Char)} {line : List Char} (laid : Laid texts line) :
    ∀ c ∈ line, isBlank c = true ∨ ∃ text ∈ texts, c ∈ text := by
  induction laid with
  | nil => exact nofun
  | last => exact fun c inside => .inr ⟨_, List.mem_singleton_self _, inside⟩
  | @word word d words text _ _ blank _ ih =>
    intro c inside
    rcases List.mem_append.mp inside with inside | inside
    · exact .inr ⟨word, List.mem_cons_self, inside⟩
    · rcases List.mem_cons.mp inside with rfl | inside
      · exact .inl blank
      · exact (ih c inside).imp_right fun ⟨other, member, within⟩ =>
          ⟨other, List.mem_cons_of_mem _ member, within⟩
  | blank blank _ ih => exact List.forall_mem_cons.mpr ⟨.inl blank, ih⟩

theorem noComment_of_notMem {line : List Char} (none : '/' ∉ line) : NoComment line := by
  induction line with
  | nil => exact .nil
  | cons c rest ih =>
    obtain ⟨first, behind⟩ := not_or.mp (List.mem_cons.not.mp none)
    exact noComment_cons_iff.mpr ⟨fun both => first both.1.symm, ih behind⟩

theorem Row.itemTexts_eq {texts : List (List Char)} {line : List Char} (row : Row texts line)
    (none : ∀ text ∈ texts, '/' ∉ text) : itemTexts line = texts := by
  have slashless {content : List Char} (laid : Laid texts content) : '/' ∉ content := by
    intro inside
    rcases mem_of_laid laid '/' inside with blank | ⟨text, member, within⟩
    · exact absurd blank (by decide)
    · exact none text member within
  cases row with
  | plain laid unbroken =>
    have cut : IsCut line line := .whole (noComment_of_notMem (slashless laid))
    rw [itemTexts_of_unbroken unbroken, cut.dropComment_eq, laid.words_eq]
  | @comment content comment laid unbroken quiet =>
    have bare : NoComment (content ++ ['/']) :=
      noComment_concat (noComment_of_notMem (slashless laid))
        (.inl fun last => slashless laid (List.mem_of_getLast? last))
    have cut : IsCut (content ++ '/' :: '/' :: comment) content := .comment bare
    rw [itemTexts_of_unbroken (unbroken.append_comment quiet), cut.dropComment_eq, laid.words_eq]

/-- The items of a text are those that it is laid out from. -/
theorem Sheet.itemTexts_eq {texts : List (List Char)} {text : List Char} (sheet : Sheet texts text)
    (none : ∀ text ∈ texts, '/' ∉ text) : itemTexts text = texts := by
  induction sheet with
  | last row => exact row.itemTexts_eq none
  | row row ends _ ih =>
    obtain ⟨first, behind⟩ := List.forall_mem_append.mp none
    rw [itemTexts_append_break ends, row.itemTexts_eq first, ih behind]

theorem Written.inFormat {text : List Char} {item : Item} (written : Written text item) :
    InFormat text := by
  cases written with
  | @place digits filled hex =>
    obtain ⟨c, rest, rfl⟩ := List.exists_cons_of_ne_nil filled
    exact .place ⟨fun d inside => .inl (hex d inside), c, List.mem_cons_self,
      hex c List.mem_cons_self⟩
  | word word => exact .word word

theorem Written.spelled {text : List Char} {item : Item} (written : Written text item) :
    Spelled text item := by
  cases written with
  | place filled hex => exact .place (numeral_of_digits filled hex)
  | word word => exact word.spelled

theorem isBlank_of_isItemCharacter {c : Char} (plain : IsItemCharacter c) : isBlank c = false := by
  have table : ∀ c ∈ hexAlphabet ++ capitalAlphabet, isBlank c = false :=
    forall_of_all (by decide)
  rcases plain with digit | rfl | rfl
  · exact table c (List.mem_append.mpr digit)
  · rfl
  · rfl

/-- The text of an item is read as that item. -/
theorem Written.ofText?_eq {text : List Char} {item : Item} (written : Written text item) :
    Item.ofText? text = some item :=
  have solid : Solid text := fun c inside =>
    isBlank_of_isItemCharacter (written.inFormat.characters c inside)
  (ofText?_eq_some_iff solid).mpr written.spelled

/-- The items that a text is laid out from are its items. -/
theorem Sheet.items_eq {texts : List (List Char)} {text : List Char} (sheet : Sheet texts text)
    {all : List Item} (written : List.Forall₂ Written texts all) : items text = .ok all := by
  have slashless : ∀ part ∈ texts, '/' ∉ part := by
    intro part inside within
    obtain ⟨item, -, written⟩ := exists_of_mem_right written.flip part inside
    exact absurd (written.inFormat.characters '/' within) (by decide)
  rw [items_eq_ok_iff, sheet.itemTexts_eq slashless]
  exact written.imp fun _ _ written => written.ofText?_eq

/-! ## Positions -/

/-- The place that an item goes on from. -/
def Item.place? : Item → Option ℤ
  | .place index => some index
  | .word _ => none

/-- Where a word goes that has items before it: to the last of their places, or to zero, and as many
places further as there are words behind that. -/
def position (before : List Item) : ℤ :=
  (before.reverse.findSome? Item.place?).getD 0 +
    (before.reverse.takeWhile (·.place?.isNone)).length

/-- The words of items, each with its position, where other items come before. -/
def placementsBehind (before : List Item) : List Item → List (ℤ × ℤ)
  | [] => []
  | .place index :: rest => placementsBehind (before ++ [.place index]) rest
  | .word value :: rest =>
    (position before, value) :: placementsBehind (before ++ [.word value]) rest

/-- The words of items, each with its position. -/
def placements (items : List Item) : List (ℤ × ℤ) :=
  placementsBehind [] items

@[simp] theorem position_place (before : List Item) (index : ℤ) :
    position (before ++ [.place index]) = index := by
  simp [position, List.findSome?_cons, Item.place?]

@[simp] theorem position_word (before : List Item) (value : ℤ) :
    position (before ++ [.word value]) = position before + 1 := by
  unfold position
  rw [List.reverse_append, List.reverse_singleton, List.singleton_append, List.findSome?_cons,
    List.takeWhile_cons_of_pos rfl, List.length_cons, Nat.cast_succ, add_assoc]
  rfl

/-- Nothing before a place matters behind it. -/
theorem position_append_place (front before : List Item) (index : ℤ) :
    position (front ++ .place index :: before) = position (.place index :: before) := by
  induction before using List.reverseRecOn with
  | nil => rw [position_place]; exact (position_place [] index).symm
  | append_singleton before item ih =>
    rw [← List.cons_append, ← List.append_assoc]
    cases item with
    | place other => rw [position_place, position_place]
    | word value => rw [position_word, position_word, ih]

theorem placementsBehind_append (before first rest : List Item) :
    placementsBehind before (first ++ rest) =
      placementsBehind before first ++ placementsBehind (before ++ first) rest := by
  induction first generalizing before with
  | nil => rw [List.append_nil]; rfl
  | cons item first ih =>
    cases item with
    | place index | word value =>
      simp only [List.cons_append, placementsBehind, ih, List.append_assoc, List.nil_append]

theorem placementsBehind_append_place (front before items : List Item) (index : ℤ) :
    placementsBehind (front ++ .place index :: before) items =
      placementsBehind (.place index :: before) items := by
  induction items generalizing before with
  | nil => rfl
  | cons item rest ih =>
    cases item with
    | place other =>
      rw [placementsBehind, placementsBehind, List.append_assoc, List.cons_append, ih]
    | word value =>
      rw [placementsBehind, placementsBehind, position_append_place, List.append_assoc,
        List.cons_append, ih]

/-- Items that start with a place go where they go by themselves. -/
theorem placements_append_place (first rest : List Item) (index : ℤ) :
    placements (first ++ .place index :: rest) =
      placements first ++ placements (.place index :: rest) := by
  unfold placements
  rw [placementsBehind_append, List.nil_append, placementsBehind, placementsBehind,
    placementsBehind_append_place, List.nil_append]

/-! ## Laying down -/

/-- Words under their places, with more words put over them one after the other. -/
def putAll (placed words : List (ℤ × ℤ)) : List (ℤ × ℤ) :=
  words.foldl (fun placed word => put word.1 word.2 placed) placed

/-- Items lay down their words at their positions. -/
theorem lay_eq (before : List Item) (placed : List (ℤ × ℤ)) (items : List Item) :
    lay (position before) placed items = putAll placed (placementsBehind before items) := by
  induction items generalizing before placed with
  | nil => rfl
  | cons item rest ih =>
    cases item with
    | place index => rw [lay, placementsBehind, ← ih, position_place]
    | word value =>
      rw [lay, placementsBehind, ← position_word before value, ih]
      rfl

theorem lookup_cons_eq (index value : ℤ) (rest : List (ℤ × ℤ)) (k : ℤ) :
    ((index, value) :: rest).lookup k = if k = index then some value else rest.lookup k := by
  rw [List.lookup_cons]
  by_cases same : k = index
  · rw [if_pos same, beq_iff_eq.mpr same]
  · rw [if_neg same, beq_eq_false_iff_ne.mpr same]

theorem lookup_put (index value : ℤ) (placed : List (ℤ × ℤ)) (k : ℤ) :
    (put index value placed).lookup k = if k = index then some value else placed.lookup k := by
  induction placed with
  | nil => exact lookup_cons_eq index value [] k
  | cons first rest ih =>
    obtain ⟨other, old⟩ := first
    unfold put
    by_cases same : other = index
    · rw [if_pos same, lookup_cons_eq, lookup_cons_eq, same]
      by_cases here : k = index
      · rw [if_pos here, if_pos here]
      · rw [if_neg here, if_neg here, if_neg here]
    · rw [if_neg same, lookup_cons_eq, lookup_cons_eq, ih]
      by_cases here : k = other
      · rw [if_pos here, if_pos here, if_neg fun there => same (here.symm.trans there)]
      · rw [if_neg here, if_neg here]

/-- A place holds the last word that was put there. -/
theorem lookup_putAll (placed words : List (ℤ × ℤ)) (k : ℤ) :
    (putAll placed words).lookup k = (words.reverse.lookup k).or (placed.lookup k) := by
  induction words using List.reverseRecOn with
  | nil => rfl
  | append_singleton words word ih =>
    unfold putAll at ih ⊢
    rw [List.foldl_append, List.foldl_cons, List.foldl_nil, lookup_put, ih, List.reverse_append,
      List.reverse_singleton, List.singleton_append, lookup_cons_eq]
    by_cases here : k = word.1
    · rw [if_pos here, if_pos here]
      rfl
    · rw [if_neg here, if_neg here]

/-- Places are listed in the order in which words were first put there. -/
theorem map_fst_putAll (placed words : List (ℤ × ℤ)) :
    (putAll placed words).map (·.1) =
      placed.map (·.1) ++ (words.map (·.1)).eraseDups.filter (· ∉ placed.map (·.1)) := by
  induction words using List.reverseRecOn with
  | nil => exact (List.append_nil _).symm
  | append_singleton words word ih =>
    have listed : word.1 ∈ placed.map (·.1) ++
          (words.map (·.1)).eraseDups.filter (· ∉ placed.map (·.1)) ↔
        word.1 ∈ placed.map (·.1) ∨ word.1 ∈ words.map (·.1) := by
      rw [List.mem_append, List.mem_filter, List.mem_eraseDups, decide_eq_true_eq]
      tauto
    have put_last : putAll placed (words ++ [word]) = put word.1 word.2 (putAll placed words) :=
      List.foldl_concat ..
    rw [put_last, map_fst_put, ih, List.map_append, List.map_singleton, List.eraseDups_append,
      List.filter_append, ← List.append_assoc]
    simp only [listed]
    by_cases known : word.1 ∈ words.map (·.1)
    · have none : [word.1].removeAll (words.map (·.1)) = [] := by simpa [List.removeAll] using known
      rw [if_pos (.inr known), none]
      exact (List.append_nil _).symm
    · have one : [word.1].removeAll (words.map (·.1)) = [word.1] := by
        simpa [List.removeAll] using known
      have alone : [word.1].eraseDups = [word.1] := rfl
      rw [one, alone]
      by_cases lying : word.1 ∈ placed.map (·.1)
      · rw [if_pos (.inl lying), List.filter_cons_of_neg (by simpa using lying)]
        exact (List.append_nil _).symm
      · rw [if_neg (not_or.mpr ⟨lying, known⟩), List.filter_cons_of_pos (by simpa using lying)]
        rfl

/-! ## Texts -/

/-- An accepted text has its words put at their positions. -/
theorem ofText_eq_ok_iff {text : List Char} {image : Image} :
    ofText text = .ok image ↔
      ∃ all, items text = .ok all ∧ image = ⟨putAll [] (placements all)⟩ := by
  have laid (all : List Item) : lay 0 [] all = putAll [] (placements all) := lay_eq [] [] all
  unfold ofText
  cases items text <;> simp [Except.map, laid, eq_comm]

theorem map_fst_putAll_nil (words : List (ℤ × ℤ)) :
    (putAll [] words).map (·.1) = (words.map (·.1)).eraseDups := by
  rw [map_fst_putAll, List.map_nil, List.nil_append]
  exact List.filter_eq_self.mpr fun _ _ => rfl

theorem lookup_putAll_nil (words : List (ℤ × ℤ)) (k : ℤ) :
    (putAll [] words).lookup k = words.reverse.lookup k := by
  rw [lookup_putAll]
  exact Option.or_none

/-- Texts one behind the other on lines of their own have the items of both. -/
theorem items_append_feed {first second : List Char} {front behind : List Item}
    (before : items first = .ok front) (after : items second = .ok behind) :
    items (first ++ '\n' :: second) = .ok (front ++ behind) := by
  rw [items_eq_ok_iff] at before after ⊢
  rw [itemTexts_append_break (.inr rfl)]
  exact List.rel_append before after

/-- A text that is laid out from items, in whatever lines, with whatever blanks and comments, is
accepted. Its image holds at every place the last word whose position that is, and lists the places
in the order of the first words there. A text that starts with a place overrides, in an image, the
text on the lines before it. -/
theorem ofText_places :
    (∀ (texts : List (List Char)) (all : List Item) (text : List Char),
      List.Forall₂ Written texts all → Sheet texts text →
        ∃ image, ofText text = .ok image ∧
          image.words.map (·.1) = ((placements all).map (·.1)).eraseDups ∧
          ∀ k, image.words.lookup k = (placements all).reverse.lookup k) ∧
    (∀ (first second : List Char) (lower upper : Image) (index : List Char),
      ofText first = .ok lower → ofText second = .ok upper →
        (itemTexts second).head? = some ('@' :: index) →
          ∃ image, ofText (first ++ '\n' :: second) = .ok image ∧
            image.words.map (·.1) = lower.words.map (·.1) ++
              (upper.words.map (·.1)).filter (· ∉ lower.words.map (·.1)) ∧
            ∀ k, image.words.lookup k = (upper.words.lookup k).or (lower.words.lookup k)) := by
  constructor
  · intro texts all text written sheet
    exact ⟨_, ofText_eq_ok_iff.mpr ⟨all, sheet.items_eq written, rfl⟩, map_fst_putAll_nil _,
      lookup_putAll_nil _⟩
  · intro first second lower upper index accepted also start
    obtain ⟨front, before, rfl⟩ := ofText_eq_ok_iff.mp accepted
    obtain ⟨behind, after, rfl⟩ := ofText_eq_ok_iff.mp also
    obtain ⟨place, rest, rfl⟩ : ∃ place rest, behind = .place place :: rest := by
      have read := items_eq_ok_iff.mp after
      obtain ⟨others, split⟩ := List.head?_eq_some_iff.mp start
      rw [split] at read
      cases read with
      | cons item =>
        obtain ⟨place, -, rfl⟩ := Option.map_eq_some_iff.mp item
        exact ⟨place, _, rfl⟩
    have both : putAll [] (placements (front ++ .place place :: rest)) =
        putAll (putAll [] (placements front)) (placements (.place place :: rest)) := by
      rw [placements_append_place]
      exact List.foldl_append
    refine ⟨_, ofText_eq_ok_iff.mpr ⟨_, items_append_feed before after, rfl⟩, ?_, fun k => ?_⟩
    · rw [both, map_fst_putAll, ← map_fst_putAll_nil]
    · rw [both, lookup_putAll, ← lookup_putAll_nil]

/-- A word with underscores, a place that is used twice, comments, and line ends of three kinds. -/
theorem places_of_sheet :
    ∃ image, ofText "@0002 1_2 34 // two\r\n@2\u000b5//over".toList = .ok image ∧
      image.words.map (·.1) = [2, 3] ∧ image.words.lookup 2 = some 5 ∧
      image.words.lookup 3 = some 0x34 := by
  have sheet : Sheet (["@0002".toList, "1_2".toList, "34".toList] ++ ([] ++ (["@2".toList] ++
        ["5".toList])))
      (("@0002 1_2 34 ".toList ++ '/' :: '/' :: " two".toList) ++ '\r' :: ([] ++ '\n' ::
        ("@2".toList ++ '\u000b' :: ("5".toList ++ '/' :: '/' :: "over".toList)))) :=
    .row (.comment (laid_iff.mpr (by decide)) (by decide) (by decide)) (.inl rfl)
      (.row (.plain .nil (by decide)) (.inr rfl)
        (.row (.plain (laid_iff.mpr (by decide)) (by decide)) (.inr rfl)
          (.last (.comment (laid_iff.mpr (by decide)) (by decide) (by decide)))))
  have written : List.Forall₂ Written
      (["@0002".toList, "1_2".toList, "34".toList] ++ ([] ++ (["@2".toList] ++ ["5".toList])))
      [.place 2, .word 0x12, .word 0x34, .place 2, .word 5] :=
    .cons (.place (by decide) (forall_of_all (by decide))) (.cons (.word (by decide))
      (.cons (.word (by decide)) (.cons (.place (by decide) (forall_of_all (by decide)))
        (.cons (.word (by decide)) .nil))))
  obtain ⟨image, accepted, keys, last⟩ := ofText_places.1 _ _ _ written sheet
  refine ⟨image, accepted, keys, (last 2).trans ?_, (last 3).trans ?_⟩ <;> decide

end BusScript.Image
