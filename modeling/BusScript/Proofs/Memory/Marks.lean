import Mathlib.Data.List.Chain
import Mathlib.Data.List.Forall2
import BusScript.Memory.Image
import BusScript.Proofs.Text.Layout
import BusScript.Proofs.Text.Lines

/-!
# The items of an image text

The lines of an image text are what stands between its line boundaries (`Text.pieces`), each is cut
at its first two slashes in a row (`IsCut`), and the words of what is left are the items, under the
numbers of their lines (`Image.marks`). They are read one by one: a text is accepted if all of them
can be read, and otherwise the first that cannot is the fault.
-/

namespace BusScript

namespace Text

/-! ## Lines -/

/-- A character that ends a line, by itself or with the line feed behind it. -/
def IsLineBreak (c : Char) : Prop :=
  c = '\r' ∨ isLineEnd c = true

instance (c : Char) : Decidable (IsLineBreak c) :=
  inferInstanceAs (Decidable (_ ∨ _))

/-- No character of the text ends a line. -/
def Unbroken (text : List Char) : Prop :=
  ∀ c ∈ text, ¬IsLineBreak c

instance (text : List Char) : Decidable (Unbroken text) :=
  List.decidableBAll (fun c => ¬IsLineBreak c) text

theorem Unbroken.append_comment {line comment : List Char} (unbroken : Unbroken line)
    (quiet : Unbroken comment) : Unbroken (line ++ '/' :: '/' :: comment) := by
  have slash : ¬IsLineBreak '/' := by decide
  exact List.forall_mem_append.mpr ⟨unbroken, List.forall_mem_cons.mpr ⟨slash,
    List.forall_mem_cons.mpr ⟨slash, quiet⟩⟩⟩

/-- What stands between the line boundaries of a text. -/
def pieces (text : List Char) : List (List Char) :=
  (unifyNewlines text).splitOnP isLineEnd

theorem pieces_ne_nil (text : List Char) : pieces text ≠ [] :=
  List.splitOnP_ne_nil isLineEnd _

/-- The lines are the pieces, of which an empty one at the end is no line. -/
theorem pieces_eq_unicodeLines (text : List Char) :
    pieces text = unicodeLines text ∨ pieces text = unicodeLines text ++ [[]] := by
  unfold unicodeLines linesBy
  show pieces text = (if (pieces text).getLast? = some [] then (pieces text).dropLast else _) ∨
    pieces text = (if (pieces text).getLast? = some [] then (pieces text).dropLast else _) ++ [[]]
  split
  · rename_i last
    right
    obtain ⟨front, split⟩ := List.getLast?_eq_some_iff.mp last
    rw [split, List.dropLast_concat]
  · exact .inl rfl

/-- A line end that is no line feed behind a carriage return is a boundary of its own. -/
theorem pieces_lineEnd {c : Char} (ends : isLineEnd c = true) {first : List Char}
    (apart : first.getLast? ≠ some '\r' ∨ c ≠ '\n') (rest : List Char) :
    pieces (first ++ c :: rest) = pieces first ++ pieces rest := by
  have other : c ≠ '\r' := by
    rintro rfl
    cases ends
  unfold pieces
  rw [unifyNewlines_append (apart.imp_right fun no same => no (by simpa using same)),
    unifyNewlines_other other, List.splitOnP_append_cons _ _ ends]

/-- Nothing is in front of a line feed that starts a text. -/
theorem pieces_feed (rest : List Char) : pieces ('\n' :: rest) = [] :: pieces rest :=
  @pieces_lineEnd '\n' rfl [] (.inl nofun) rest

/-- A carriage return is a boundary, together with a line feed behind it. -/
theorem pieces_return (first rest : List Char) :
    pieces (first ++ '\r' :: rest) =
      pieces first ++ pieces (if rest.head? = some '\n' then rest.tail else rest) := by
  unfold pieces
  rw [unifyNewlines_append (.inr (by simp))]
  split
  · rename_i feed
    obtain ⟨more, rfl⟩ := List.head?_eq_some_iff.mp feed
    rw [unifyNewlines, List.splitOnP_append_cons _ _ rfl]
    rfl
  · rename_i alone
    rw [unifyNewlines_return alone, List.splitOnP_append_cons _ _ rfl]

theorem unifyNewlines_of_unbroken {text : List Char} (unbroken : Unbroken text) :
    unifyNewlines text = text := by
  induction text with
  | nil => rfl
  | cons c rest ih =>
    obtain ⟨first, unbroken⟩ := List.forall_mem_cons.mp unbroken
    rw [unifyNewlines_other fun same => first (.inl same), ih unbroken]

/-- Without a boundary in its text there is one piece. -/
theorem pieces_of_unbroken {text : List Char} (unbroken : Unbroken text) :
    pieces text = [text] := by
  unfold pieces
  rw [unifyNewlines_of_unbroken unbroken]
  refine List.splitOnP_eq_singleton fun c member => ?_
  rw [Bool.eq_false_iff]
  exact fun ends => unbroken c member (.inr ends)

end Text

namespace Image

open Text

/-! ## Comments -/

/-- No two slashes in a row. -/
def NoComment (text : List Char) : Prop :=
  text.IsChain fun c d => ¬(c = '/' ∧ d = '/')

/-- The part of a line in front of its first two slashes in a row, or all of it if it has none. -/
inductive IsCut : List Char → List Char → Prop
  | whole {line : List Char} : NoComment line → IsCut line line
  | comment {front comment : List Char} :
      NoComment (front ++ ['/']) → IsCut (front ++ '/' :: '/' :: comment) front

theorem dropComment_slashes (rest : List Char) : dropComment ('/' :: '/' :: rest) = [] :=
  rfl

theorem dropComment_cons {c : Char} {rest : List Char} (none : ¬(c = '/' ∧ rest.head? = some '/')) :
    dropComment (c :: rest) = c :: dropComment rest := by
  rw [dropComment]
  rintro more rfl rfl
  exact none ⟨rfl, rfl⟩

theorem noComment_cons_iff {c : Char} {rest : List Char} :
    NoComment (c :: rest) ↔ ¬(c = '/' ∧ rest.head? = some '/') ∧ NoComment rest := by
  unfold NoComment
  cases rest with
  | nil => simp
  | cons d rest => simp [List.isChain_cons_cons]

theorem NoComment.of_append {front rest : List Char} (none : NoComment (front ++ rest)) :
    NoComment front :=
  List.IsChain.left_of_append none

theorem noComment_concat {line : List Char} {c : Char} (none : NoComment line)
    (apart : line.getLast? ≠ some '/' ∨ c ≠ '/') : NoComment (line ++ [c]) := by
  unfold NoComment
  rw [List.isChain_append]
  refine ⟨none, List.isChain_singleton c, fun d last e first both => ?_⟩
  rw [List.head?_singleton, Option.mem_some] at first
  rcases apart with other | other
  · exact other (both.1 ▸ last)
  · exact other (first.trans both.2)

theorem isCut_dropComment (line : List Char) : IsCut line (dropComment line) := by
  induction line with
  | nil => exact .whole .nil
  | cons c rest ih =>
    by_cases slashes : c = '/' ∧ rest.head? = some '/'
    · obtain ⟨rfl, second⟩ := slashes
      obtain ⟨more, rfl⟩ := List.head?_eq_some_iff.mp second
      exact @IsCut.comment [] more (List.isChain_singleton '/')
    · rw [dropComment_cons slashes]
      generalize dropComment rest = front at ih
      cases ih with
      | whole none => exact .whole (noComment_cons_iff.mpr ⟨slashes, none⟩)
      | @comment _ comment none =>
        refine @IsCut.comment (c :: front) comment (noComment_cons_iff.mpr ⟨?_, none⟩)
        cases front with
        | nil => simpa using slashes
        | cons d front => simpa using slashes

theorem IsCut.dropComment_eq {line front : List Char} (cut : IsCut line front) :
    dropComment line = front := by
  cases cut with
  | whole none =>
    induction line with
    | nil => rfl
    | cons c rest ih =>
      obtain ⟨slashes, none⟩ := noComment_cons_iff.mp none
      rw [dropComment_cons slashes, ih none]
  | @comment _ comment none =>
    induction front with
    | nil => rfl
    | cons c front ih =>
      obtain ⟨slashes, none⟩ := noComment_cons_iff.mp none
      rw [List.cons_append, dropComment_cons, ih none]
      cases front with
      | nil => simpa using slashes
      | cons d front => simpa using slashes

theorem dropComment_eq_iff {line front : List Char} :
    dropComment line = front ↔ IsCut line front :=
  ⟨fun same => same ▸ isCut_dropComment line, IsCut.dropComment_eq⟩

/-! ## Items -/

/-- The words in front of the comments of lines, each with the number of its line. -/
def numberedWords (number : ℕ) (lines : List (List Char)) : List (ℕ × List Char) :=
  (lines.zipIdx number).flatMap fun line => (Text.words (dropComment line.1)).map (line.2, ·)

/-- What stands for an item in a text: the words in front of the comments of its lines, each with
the number of its line. -/
def marks (text : List Char) : List (ℕ × List Char) :=
  numberedWords 1 (unicodeLines text)

theorem numberedWords_cons (number : ℕ) (line : List Char) (rest : List (List Char)) :
    numberedWords number (line :: rest) =
      (Text.words (dropComment line)).map (number, ·) ++ numberedWords (number + 1) rest := by
  rw [numberedWords, List.zipIdx_cons, List.flatMap_cons]
  rfl

theorem numberedWords_append (number : ℕ) (first rest : List (List Char)) :
    numberedWords number (first ++ rest) =
      numberedWords number first ++ numberedWords (number + first.length) rest := by
  unfold numberedWords
  rw [List.zipIdx_append, List.flatMap_append]

/-- The texts of the items do not depend on the numbers of their lines. -/
theorem map_snd_numberedWords (number : ℕ) (lines : List (List Char)) :
    (numberedWords number lines).map (·.2) =
      lines.flatMap fun line => Text.words (dropComment line) := by
  induction lines generalizing number with
  | nil => rfl
  | cons line rest ih =>
    rw [numberedWords_cons, List.map_append, List.map_map, ih, List.flatMap_cons]
    exact congrArg (· ++ _) (List.map_id _)

theorem marks_eq_pieces (text : List Char) : marks text = numberedWords 1 (pieces text) := by
  rcases pieces_eq_unicodeLines text with same | same
  · rw [same, marks]
  · rw [same, numberedWords_append]
    exact (List.append_nil _).symm

theorem solid_of_mem_marks {text : List Char} {mark : ℕ × List Char} (member : mark ∈ marks text) :
    mark.2 ≠ [] ∧ Solid mark.2 := by
  obtain ⟨line, -, numbered⟩ := List.mem_flatMap.mp member
  obtain ⟨word, inside, rfl⟩ := List.mem_map.mp numbered
  exact solid_of_mem_words inside

/-- The items of a text as they are written. -/
def itemTexts (text : List Char) : List (List Char) :=
  (marks text).map (·.2)

theorem itemTexts_eq (text : List Char) :
    itemTexts text = (pieces text).flatMap fun line => Text.words (dropComment line) := by
  rw [itemTexts, marks_eq_pieces, map_snd_numberedWords]

/-- The items of a line are the words in front of its comment. -/
theorem itemTexts_of_unbroken {line : List Char} (unbroken : Unbroken line) :
    itemTexts line = Text.words (dropComment line) := by
  rw [itemTexts_eq, pieces_of_unbroken unbroken, List.flatMap_singleton]

/-- No item goes across a line boundary. -/
theorem itemTexts_append_break {c : Char} (ends : IsLineBreak c) (first rest : List Char) :
    itemTexts (first ++ c :: rest) = itemTexts first ++ itemTexts rest := by
  -- A line feed behind a carriage return ends no line, but the line that it would end is empty.
  have feed (rest : List Char) : itemTexts ('\n' :: rest) = itemTexts rest := by
    rw [itemTexts_eq, pieces_feed, List.flatMap_cons, ← itemTexts_eq]
    rfl
  have returned (first rest : List Char) :
      itemTexts (first ++ '\r' :: rest) = itemTexts first ++ itemTexts rest := by
    rw [itemTexts_eq, pieces_return, List.flatMap_append, ← itemTexts_eq, ← itemTexts_eq]
    split
    · rename_i next
      obtain ⟨more, rfl⟩ := List.head?_eq_some_iff.mp next
      rw [List.tail_cons, feed]
    · rfl
  rcases ends with rfl | ends
  · exact returned first rest
  · by_cases apart : first.getLast? ≠ some '\r' ∨ c ≠ '\n'
    · rw [itemTexts_eq, pieces_lineEnd ends apart, List.flatMap_append, ← itemTexts_eq,
        ← itemTexts_eq]
    · rw [not_or, not_not, not_not] at apart
      obtain ⟨last, rfl⟩ := apart
      obtain ⟨front, rfl⟩ := List.getLast?_eq_some_iff.mp last
      have front_return : itemTexts (front ++ ['\r']) = itemTexts front :=
        (returned front []).trans (List.append_nil _)
      rw [List.append_assoc, List.singleton_append, returned, feed, front_return]

/-! ## Reading -/

/-- The item of a mark. -/
def readMark (mark : ℕ × List Char) : Except Fault Item :=
  match Item.ofText? mark.2 with
  | some item => .ok item
  | none => .error ⟨mark.1, String.ofList mark.2⟩

theorem linesItems_eq (number : ℕ) (lines : List (List Char)) :
    linesItems number lines = (numberedWords number lines).mapM readMark := by
  induction lines generalizing number with
  | nil => rfl
  | cons line rest ih =>
    rw [numberedWords_cons, List.mapM_append, List.mapM_map, ← ih]
    rfl

/-- The items of a text are its marks, read one after the other. -/
theorem items_eq (text : List Char) : items text = (marks text).mapM readMark :=
  linesItems_eq 1 _

theorem mapM_eq_ok_iff {α β ε : Type} {f : α → Except ε β} {xs : List α} {ys : List β} :
    xs.mapM f = .ok ys ↔ List.Forall₂ (fun x y => f x = .ok y) xs ys := by
  induction xs generalizing ys with
  | nil => cases ys <;> simp [pure, Except.pure]
  | cons x xs ih =>
    rw [List.mapM_cons, List.forall₂_cons_left_iff]
    cases first : f x with
    | error e => simp [bind, Except.bind]
    | ok y =>
      simp only [bind, Except.bind, ← ih]
      cases rest : xs.mapM f with
      | error e => simp
      | ok zs => simp [pure, Except.pure, eq_comm]

theorem mapM_eq_error_iff {α β ε : Type} {f : α → Except ε β} {xs : List α} {e : ε} :
    xs.mapM f = .error e ↔
      ∃ front x behind, xs = front ++ x :: behind ∧ (∀ y ∈ front, ∃ b, f y = .ok b) ∧
        f x = .error e := by
  induction xs with
  | nil => simp [pure, Except.pure]
  | cons x xs ih =>
    rw [List.mapM_cons]
    constructor
    · intro failed
      cases first : f x with
      | error other =>
        rw [first] at failed
        cases failed
        exact ⟨[], x, xs, rfl, nofun, first⟩
      | ok b =>
        rw [first] at failed
        cases rest : xs.mapM f with
        | ok ys =>
          rw [rest] at failed
          cases failed
        | error other =>
          rw [rest] at failed
          cases failed
          obtain ⟨front, y, behind, rfl, sound, bad⟩ := ih.mp rest
          exact ⟨x :: front, y, behind, rfl, List.forall_mem_cons.mpr ⟨⟨b, first⟩, sound⟩, bad⟩
    · rintro ⟨front, y, behind, split, sound, bad⟩
      cases front with
      | nil =>
        cases split
        rw [bad]
        rfl
      | cons z front =>
        cases split
        obtain ⟨⟨b, first⟩, sound⟩ := List.forall_mem_cons.mp sound
        rw [first, ih.mpr ⟨front, y, behind, rfl, sound, bad⟩]
        rfl

theorem exists_forall₂_iff {α β : Type} {R : α → β → Prop} {xs : List α} :
    (∃ ys, List.Forall₂ R xs ys) ↔ ∀ x ∈ xs, ∃ y, R x y := by
  induction xs with
  | nil => exact iff_of_true ⟨[], .nil⟩ nofun
  | cons x xs ih =>
    rw [List.forall_mem_cons, ← ih]
    constructor
    · rintro ⟨_, read⟩
      cases read with
      | cons first rest => exact ⟨⟨_, first⟩, _, rest⟩
    · rintro ⟨⟨y, first⟩, ys, rest⟩
      exact ⟨y :: ys, .cons first rest⟩

theorem exists_of_mem_right {α β : Type} {R : α → β → Prop} {xs : List α} {ys : List β}
    (related : List.Forall₂ R xs ys) : ∀ y ∈ ys, ∃ x ∈ xs, R x y := by
  induction related with
  | nil => exact nofun
  | @cons x y xs ys first _ ih =>
    refine List.forall_mem_cons.mpr ⟨⟨x, List.mem_cons_self, first⟩, fun z inside => ?_⟩
    obtain ⟨w, member, related⟩ := ih z inside
    exact ⟨w, List.mem_cons_of_mem _ member, related⟩

/-- The items of an accepted text are what its marks spell. -/
theorem items_eq_ok_iff {text : List Char} {all : List Item} :
    items text = .ok all ↔
      List.Forall₂ (fun item spelled => Item.ofText? item = some spelled) (itemTexts text) all := by
  have read {mark : ℕ × List Char} {item : Item} :
      readMark mark = .ok item ↔ Item.ofText? mark.2 = some item := by
    unfold readMark
    cases Item.ofText? mark.2 <;> simp
  rw [items_eq, mapM_eq_ok_iff, itemTexts, List.forall₂_map_left_iff]
  simp only [read]

/-- A text that is not accepted has a first mark that spells no item. -/
theorem items_eq_error_iff {text : List Char} {fault : Fault} :
    items text = .error fault ↔
      ∃ front number item behind, marks text = front ++ (number, item) :: behind ∧
        (∀ mark ∈ front, ∃ spelled, Item.ofText? mark.2 = some spelled) ∧
        Item.ofText? item = none ∧ fault = ⟨number, String.ofList item⟩ := by
  have sound {mark : ℕ × List Char} :
      (∃ item, readMark mark = .ok item) ↔ ∃ item, Item.ofText? mark.2 = some item := by
    unfold readMark
    cases Item.ofText? mark.2 <;> simp
  have bad {number : ℕ} {item : List Char} :
      readMark (number, item) = .error fault ↔
        Item.ofText? item = none ∧ fault = ⟨number, String.ofList item⟩ := by
    unfold readMark
    cases Item.ofText? item <;> simp [eq_comm]
  rw [items_eq, mapM_eq_error_iff]
  simp only [Prod.exists, sound, bad]

end Image

end BusScript
