import Mathlib.Data.List.Basic
import Mathlib.Data.List.TakeWhile
import BusScript.Command.Token

/-!
# Layout

A line can be laid out in many ways: any white space stands between two of its words, at least one
blank of it, and any at the ends. `Laid` is the relation between words and the texts that they can
be laid out as. Cutting such a text gives the words back.
-/

namespace BusScript

namespace Text

/-! ## Layouts of words -/

/-- No white space. -/
def Solid (word : List Char) : Prop :=
  ∀ c ∈ word, isBlank c = false

/-- Nothing but white space. -/
def White (gap : List Char) : Prop :=
  ∀ c ∈ gap, isBlank c = true

instance (word : List Char) : Decidable (Solid word) :=
  List.decidableBAll (fun c => isBlank c = false) word

instance (gap : List Char) : Decidable (White gap) :=
  List.decidableBAll (fun c => isBlank c = true) gap

theorem White.of_head? {gap rest : List Char} {c : Char} (white : White gap) (filled : gap ≠ [])
    (first : (gap ++ rest).head? = some c) : isBlank c = true := by
  rw [List.head?_append_of_ne_nil _ filled] at first
  exact white c (List.mem_of_head? first)

theorem White.of_getLast? {gap rest : List Char} {c : Char} (white : White gap)
    (filled : gap ≠ []) (last : (rest ++ gap).getLast? = some c) : isBlank c = true := by
  rw [List.getLast?_append_of_ne_nil _ filled] at last
  exact white c (List.mem_of_getLast? last)

/-- What a check of all characters of a text has found holds of each of them. -/
theorem forall_of_all {P : Char → Prop} [DecidablePred P] {text : List Char}
    (all : (text.all fun c => decide (P c)) = true) : ∀ c ∈ text, P c :=
  fun c member => of_decide_eq_true (List.all_eq_true.mp all c member)

/-- The text is the words in their order, apart by white space. -/
inductive Laid : List (List Char) → List Char → Prop
  | nil : Laid [] []
  | last {word : List Char} : word ≠ [] → Solid word → Laid [word] word
  | word {word : List Char} {c : Char} {words : List (List Char)} {text : List Char} :
      word ≠ [] → Solid word → isBlank c = true → Laid words text →
        Laid (word :: words) (word ++ c :: text)
  | blank {c : Char} {words : List (List Char)} {text : List Char} :
      isBlank c = true → Laid words text → Laid words (c :: text)

theorem Laid.words_eq {words : List (List Char)} {text : List Char} (laid : Laid words text) :
    Text.words text = words := by
  unfold Text.words
  induction laid with
  | nil => rfl
  | last some solid =>
    rw [List.splitOnP_eq_singleton solid, List.filter_cons_of_pos (by simpa using some)]
    rfl
  | word some solid blank _ ih =>
    rw [List.splitOnP_append_cons_of_forall_mem solid _ blank,
      List.filter_cons_of_pos (by simpa using some), ih]
  | blank blank _ ih =>
    rw [List.splitOnP_cons_eq_if_modifyHead, if_pos blank,
      List.filter_cons_of_neg (by decide), ih]

theorem exists_laid (text : List Char) : ∃ words, Laid words text := by
  induction text with
  | nil => exact ⟨[], .nil⟩
  | cons c text ih =>
    obtain ⟨words, laid⟩ := ih
    cases blank : isBlank c with
    | true => exact ⟨words, .blank blank laid⟩
    | false =>
      -- The character starts the first word of the rest, or is a word of its own before a blank.
      have longer {word : List Char} (solid : Solid word) : Solid (c :: word) := by
        intro d member
        rcases List.mem_cons.mp member with rfl | member
        · exact blank
        · exact solid d member
      have one : Solid [c] := longer fun d member => by cases member
      cases laid with
      | nil => exact ⟨_, .last (List.cons_ne_nil c _) one⟩
      | last some solid => exact ⟨_, .last (List.cons_ne_nil c _) (longer solid)⟩
      | word some solid gap laid => exact ⟨_, .word (List.cons_ne_nil c _) (longer solid) gap laid⟩
      | blank gap laid => exact ⟨_, .word (List.cons_ne_nil c _) one gap laid⟩

/-- A text is laid out from its words and from no others. -/
theorem laid_iff {words : List (List Char)} {text : List Char} :
    Laid words text ↔ Text.words text = words := by
  constructor
  · exact Laid.words_eq
  · rintro rfl
    obtain ⟨words, laid⟩ := exists_laid text
    rwa [laid.words_eq]

theorem Laid.solid {words : List (List Char)} {text : List Char} (laid : Laid words text) :
    ∀ word ∈ words, word ≠ [] ∧ Solid word := by
  induction laid with
  | nil => exact List.forall_mem_nil _
  | last some solid => exact List.forall_mem_singleton.mpr ⟨some, solid⟩
  | word some solid _ _ ih => exact List.forall_mem_cons.mpr ⟨⟨some, solid⟩, ih⟩
  | blank _ _ ih => exact ih

theorem solid_of_mem_words {word text : List Char} (member : word ∈ Text.words text) :
    word ≠ [] ∧ Solid word :=
  (laid_iff.mpr rfl : Laid (Text.words text) text).solid word member

theorem white_of_words_eq_nil {text : List Char} (none : Text.words text = []) : White text := by
  have laid := laid_iff.mpr none
  clear none
  induction text with
  | nil => exact List.forall_mem_nil _
  | cons c text ih =>
    cases laid with
    | blank blank laid => exact List.forall_mem_cons.mpr ⟨blank, ih laid⟩

/-! ## Words of parts -/

theorem words_of_solid {word : List Char} (some : word ≠ []) (solid : Solid word) :
    Text.words word = [word] :=
  (Laid.last some solid).words_eq

/-- No word goes across a blank. -/
theorem words_append_cons {c : Char} (blank : isBlank c = true) (first rest : List Char) :
    Text.words (first ++ c :: rest) = Text.words first ++ Text.words rest := by
  unfold Text.words
  rw [List.splitOnP_append_cons first rest blank, List.filter_append]

theorem words_append_gap {gap : List Char} (some : gap ≠ []) (white : White gap)
    (first rest : List Char) :
    Text.words (first ++ gap ++ rest) = Text.words first ++ Text.words rest := by
  induction gap generalizing first with
  | nil => exact absurd rfl some
  | cons c gap ih =>
    obtain ⟨blank, white⟩ := List.forall_mem_cons.mp white
    rw [List.append_assoc, List.cons_append, words_append_cons blank]
    rcases gap with - | ⟨d, gap⟩
    · rfl
    · have behind := ih (List.cons_ne_nil d gap) white []
      rw [List.nil_append] at behind
      rw [behind]
      rfl

theorem words_of_white {gap : List Char} (white : White gap) : Text.words gap = [] := by
  rcases eq_or_ne gap [] with rfl | some
  · rfl
  · have parts := words_append_gap some white [] []
    rwa [List.nil_append, List.append_nil] at parts

theorem words_white_append {gap : List Char} (white : White gap) (rest : List Char) :
    Text.words (gap ++ rest) = Text.words rest := by
  rcases eq_or_ne gap [] with rfl | some
  · rfl
  · exact words_append_gap some white [] rest

theorem words_append_white {gap : List Char} (white : White gap) (first : List Char) :
    Text.words (first ++ gap) = Text.words first := by
  rcases eq_or_ne gap [] with rfl | some
  · rw [List.append_nil]
  · have parts := words_append_gap some white first []
    rw [List.append_nil] at parts
    exact parts.trans (List.append_nil _)

/-! ## Starts of texts -/

theorem dropWhile_append_solid {word rest : List Char} (some : word ≠ []) (solid : Solid word) :
    (word ++ rest).dropWhile isBlank = word ++ rest := by
  obtain ⟨c, word, rfl⟩ := List.exists_cons_of_ne_nil some
  rw [List.cons_append, List.dropWhile_cons_of_neg]
  rw [solid c List.mem_cons_self]
  decide

/-- The blanks in front of a text go without its words, and the text starts with the first word
then. -/
theorem Laid.front {words : List (List Char)} {text : List Char} (laid : Laid words text) :
    Laid words (text.dropWhile isBlank) ∧
      (text.dropWhile isBlank).takeWhile (fun c => !isBlank c) = words.headD [] := by
  induction laid with
  | nil => exact ⟨.nil, rfl⟩
  | @last word some solid =>
    have plain : (word ++ []).dropWhile isBlank = word ++ [] := dropWhile_append_solid some solid
    rw [List.append_nil] at plain
    rw [plain]
    refine ⟨.last some solid, List.takeWhile_eq_self_iff.mpr fun c member => ?_⟩
    rw [solid c member]
    rfl
  | word some solid blank laid _ =>
    rw [dropWhile_append_solid some solid]
    refine ⟨.word some solid blank laid, ?_⟩
    rw [List.takeWhile_append_of_pos fun c member => by rw [solid c member]; rfl,
      List.takeWhile_cons_of_neg (by simp [blank]), List.append_nil]
    rfl
  | blank blank _ ih =>
    rw [List.dropWhile_cons_of_pos blank]
    exact ih

end Text

open Text

/-- A line that is laid out from tokens has these tokens, unless it is a preload in its own
notation. -/
theorem tokenize_of_laid {tokens : List String} {line : String}
    (laid : Laid (tokens.map String.toList) line.toList)
    (other : tokens.head? ≠ some "PRELOAD") : tokenize line = tokens := by
  obtain ⟨laid, front⟩ := laid.front
  have keyword : (tokens.map String.toList).headD [] ≠ preloadKeyword := by
    intro equal
    cases tokens with
    | nil => cases equal
    | cons first rest =>
      have first : first = "PRELOAD" := String.toList_inj.mp equal
      exact other (congrArg some first)
  unfold tokenize
  dsimp only
  rw [front, if_neg keyword, laid.words_eq, List.map_map]
  exact (List.map_congr_left fun token _ => String.ofList_toList).trans (List.map_id tokens)

end BusScript
