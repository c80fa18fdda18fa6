import BusScript.Proofs.Memory.Marks

/-!
# Comments in image texts

A line ends in a piece of the text (`Text.pieces`), and only the words in front of the comment of
this piece count. So a comment that is put at the end of a line changes nothing as a rule
(`ofText_comment`). There are two exceptions. A slash at the end of the line is taken for the first
of the two that start the comment. And behind a carriage return, which ends its line, the comment is
on a line of its own, so the lines behind it get other numbers.
-/

namespace BusScript

namespace Text

/-! ## Ends of lines -/

/-- A line starts behind the text. -/
def AtLineStart (front : List Char) : Prop :=
  ∀ c ∈ front.getLast?, IsLineBreak c

/-- What stands behind the last line boundary of a text. -/
def lastPiece (text : List Char) : List Char :=
  (pieces text).getLast (pieces_ne_nil text)

/-- Behind a boundary the pieces are those of the rest. -/
theorem exists_pieces_break {c : Char} (ends : IsLineBreak c) (first : List Char) :
    ∃ before, ∀ rest, c ≠ '\r' ∨ rest.head? ≠ some '\n' →
      pieces (first ++ c :: rest) = before ++ pieces rest := by
  rcases ends with rfl | ends
  · refine ⟨pieces first, fun rest apart => ?_⟩
    rw [pieces_return, if_neg (apart.resolve_left fun other => other rfl)]
  · by_cases apart : first.getLast? ≠ some '\r' ∨ c ≠ '\n'
    · exact ⟨pieces first, fun rest _ => pieces_lineEnd ends apart rest⟩
    · -- The boundary is the line feed behind a carriage return, and they are one.
      rw [not_or, not_not, not_not] at apart
      obtain ⟨last, rfl⟩ := apart
      obtain ⟨front, rfl⟩ := List.getLast?_eq_some_iff.mp last
      refine ⟨pieces front, fun rest _ => ?_⟩
      rw [List.append_assoc, List.singleton_append, pieces_return, if_pos List.head?_cons,
        List.tail_cons]

/-- The pieces of a text and of what follows on a new line, if no line feed follows that belongs to
the boundary. -/
theorem pieces_append {front : List Char} (start : AtLineStart front) {rest : List Char}
    (apart : front.getLast? ≠ some '\r' ∨ rest.head? ≠ some '\n') :
    pieces (front ++ rest) = (pieces front).dropLast ++ pieces rest := by
  rcases List.eq_nil_or_concat' front with rfl | ⟨first, c, rfl⟩
  · rfl
  · obtain ⟨before, split⟩ := exists_pieces_break (start c List.getLast?_concat) first
    have alone : pieces (first ++ [c]) = before ++ [[]] := split [] (.inr (by simp))
    rw [List.append_assoc, List.singleton_append, split rest, alone, List.dropLast_concat]
    exact apart.imp_left fun other same => other (by rw [same, List.getLast?_concat])

/-- A carriage return and its line feed are one boundary. -/
theorem pieces_append_feed {front : List Char} (returned : front.getLast? = some '\r')
    (rest : List Char) :
    pieces (front ++ '\n' :: rest) = (pieces front).dropLast ++ pieces rest := by
  obtain ⟨first, rfl⟩ := List.getLast?_eq_some_iff.mp returned
  have alone : pieces (first ++ ['\r']) = pieces first ++ [[]] := pieces_return first []
  rw [List.append_assoc, List.singleton_append, pieces_return, if_pos List.head?_cons,
    List.tail_cons, alone, List.dropLast_concat]

/-- An empty piece at the end is no line. -/
theorem unicodeLines_of_atLineStart {front : List Char} (start : AtLineStart front) :
    unicodeLines front = (pieces front).dropLast := by
  have empty : (pieces front).getLast? = some [] := by
    have split : pieces (front ++ []) = _ := pieces_append start (.inr nofun)
    rw [List.append_nil] at split
    rw [split]
    exact List.getLast?_concat
  exact if_pos empty

/-- A text is its last piece and what is before it. -/
theorem exists_lastPiece (text : List Char) :
    ∃ front, AtLineStart front ∧ text = front ++ lastPiece text ∧ Unbroken (lastPiece text) := by
  have cut : ∃ front last, AtLineStart front ∧ text = front ++ last ∧ Unbroken last := by
    induction text using List.reverseRecOn with
    | nil => exact ⟨[], [], nofun, rfl, nofun⟩
    | append_singleton text c ih =>
      by_cases ends : IsLineBreak c
      · refine ⟨text ++ [c], [], fun d last => ?_, (List.append_nil _).symm, nofun⟩
        rw [List.getLast?_concat, Option.mem_some] at last
        exact last ▸ ends
      · obtain ⟨front, last, start, rfl, unbroken⟩ := ih
        refine ⟨front, last ++ [c], start, List.append_assoc .., fun d inside => ?_⟩
        rcases List.mem_append.mp inside with inside | inside
        · exact unbroken d inside
        · exact List.mem_singleton.mp inside ▸ ends
  obtain ⟨front, last, start, rfl, unbroken⟩ := cut
  have apart : front.getLast? ≠ some '\r' ∨ last.head? ≠ some '\n' :=
    .inr fun feed => unbroken '\n' (List.mem_of_head? feed) (.inr rfl)
  have same : lastPiece (front ++ last) = last := by
    simp only [lastPiece, pieces_append start apart, pieces_of_unbroken unbroken,
      List.getLast_concat]
  rw [same]
  exact ⟨front, start, rfl, unbroken⟩

/-- The pieces around a line whose end is known. -/
theorem pieces_around {front line behind : List Char} (start : AtLineStart front)
    (unbroken : Unbroken line) (ends : behind = [] ∨ behind.head? = some '\n')
    (apart : front.getLast? ≠ some '\r' ∨ (line ++ behind).head? ≠ some '\n') :
    pieces (front ++ (line ++ behind)) =
      (pieces front).dropLast ++ line :: (pieces behind).tail := by
  rw [pieces_append start apart]
  congr 1
  rcases ends with rfl | feed
  · rw [List.append_nil, pieces_of_unbroken unbroken]
    rfl
  · obtain ⟨rest, rfl⟩ := List.head?_eq_some_iff.mp feed
    have other : line.getLast? ≠ some '\r' := fun last =>
      unbroken '\r' (List.mem_of_getLast? last) (.inl rfl)
    rw [pieces_lineEnd rfl (.inl other), pieces_of_unbroken unbroken, pieces_feed]
    rfl

end Text

namespace Image

open Text

/-! ## Lines with a comment -/

/-- The text ends in a slash that is in no comment. -/
structure EndsInSlash (text : List Char) : Prop where
  slash : (lastPiece text).getLast? = some '/'
  bare : NoComment (lastPiece text)

/-- A comment behind a line is cut off, together with a comment that is there already, unless a
slash comes before it. -/
theorem dropComment_append_comment {line : List Char}
    (apart : ¬(line.getLast? = some '/' ∧ NoComment line)) (comment : List Char) :
    dropComment (line ++ '/' :: '/' :: comment) = dropComment line := by
  have cut := isCut_dropComment line
  generalize dropComment line = front at cut
  apply IsCut.dropComment_eq
  cases cut with
  | whole none =>
    exact .comment (noComment_concat none (.inl fun slash => apart ⟨slash, none⟩))
  | @comment _ first none =>
    have longer : front ++ '/' :: '/' :: first ++ '/' :: '/' :: comment =
        front ++ '/' :: '/' :: (first ++ '/' :: '/' :: comment) := by
      simp
    rw [longer]
    exact .comment none

/-- A slash in front of a comment is taken into it, and counts as a blank does. -/
theorem words_append_slash {line : List Char} (none : NoComment (line ++ ['/']))
    (comment : List Char) :
    Text.words (dropComment (line ++ ['/'] ++ '/' :: '/' :: comment)) =
      Text.words (dropComment (line ++ [' '])) := by
  have cut : IsCut (line ++ ['/'] ++ '/' :: '/' :: comment) line := by
    rw [List.append_assoc]
    exact .comment none
  have whole : IsCut (line ++ [' ']) (line ++ [' ']) :=
    .whole (noComment_concat none.of_append (.inr (by decide)))
  rw [cut.dropComment_eq, whole.dropComment_eq, words_append_white (by decide)]

/-! ## Lines with other numbers -/

/-- The fault with another number for its line. -/
def Fault.renumber (number : ℕ → ℕ) (fault : Fault) : Fault :=
  { fault with line := number fault.line }

/-- The number of a line where one more line comes behind the first of them. -/
def insertLine (count number : ℕ) : ℕ :=
  if number ≤ count then number else number + 1

/-- Numbers are given to lines one after the other. -/
theorem numberedWords_renumber {number : ℕ → ℕ} {first other : ℕ} {lines : List (List Char)}
    (same : ∀ i < lines.length, number (first + i) = other + i) :
    (numberedWords first lines).map (Prod.map number id) = numberedWords other lines := by
  induction lines generalizing first other with
  | nil => rfl
  | cons line rest ih =>
    have here : number first = other := same 0 (Nat.succ_pos _)
    have behind : ∀ i < rest.length, number (first + 1 + i) = other + 1 + i := by
      intro i low
      have next := same (i + 1) (Nat.succ_lt_succ low)
      rwa [← Nat.add_assoc, ← Nat.add_assoc, Nat.add_right_comm first, Nat.add_right_comm other]
        at next
    rw [numberedWords_cons, numberedWords_cons, List.map_append, ih behind, List.map_map]
    congr 2
    funext word
    exact congrArg (·, word) here

theorem mapM_readMark_renumber (number : ℕ → ℕ) (marks : List (ℕ × List Char)) :
    (marks.map (Prod.map number id)).mapM readMark =
      (marks.mapM readMark).mapError (Fault.renumber number) := by
  induction marks with
  | nil => rfl
  | cons mark rest ih =>
    have first : readMark (Prod.map number id mark) =
        (readMark mark).mapError (Fault.renumber number) := by
      unfold readMark
      cases read : Item.ofText? mark.2 <;> simp [read, Except.mapError, Fault.renumber]
    rw [List.map_cons, List.mapM_cons, List.mapM_cons, ih, first]
    cases readMark mark with
    | error fault => rfl
    | ok item => cases rest.mapM readMark <;> rfl

/-! ## Texts -/

/-- An image depends on the marks of its text only, and a fault has the number of its mark. -/
theorem ofText_renumber {number : ℕ → ℕ} {text other : List Char}
    (same : marks other = (marks text).map (Prod.map number id)) :
    ofText other = (ofText text).mapError (Fault.renumber number) := by
  unfold ofText
  rw [items_eq, items_eq, same, mapM_readMark_renumber]
  cases (marks text).mapM readMark <;> rfl

theorem ofText_congr {text other : List Char} (same : marks text = marks other) :
    ofText text = ofText other := by
  unfold ofText
  rw [items_eq, items_eq, same]

/-- A line counts for its words in front of the comment. -/
theorem marks_around {front line other behind : List Char} (start : AtLineStart front)
    (unbroken : Unbroken line) (sound : Unbroken other)
    (ends : behind = [] ∨ behind.head? = some '\n')
    (apart : front.getLast? ≠ some '\r' ∨ (line ++ behind).head? ≠ some '\n')
    (also : front.getLast? ≠ some '\r' ∨ (other ++ behind).head? ≠ some '\n')
    (same : Text.words (dropComment line) = Text.words (dropComment other)) :
    marks (front ++ (line ++ behind)) = marks (front ++ (other ++ behind)) := by
  rw [marks_eq_pieces, marks_eq_pieces, pieces_around start unbroken ends apart,
    pieces_around start sound ends also, numberedWords_append, numberedWords_append,
    numberedWords_cons, numberedWords_cons, same]

/-- A line that is not empty does not start with a line feed. -/
theorem head?_ne_feed {line : List Char} (filled : line ≠ []) (unbroken : Unbroken line)
    (behind : List Char) : (line ++ behind).head? ≠ some '\n' := by
  rw [List.head?_append_of_ne_nil line filled]
  exact fun feed => unbroken '\n' (List.mem_of_head? feed) (.inr rfl)

section Comment

variable {before behind comment : List Char}

/-- A comment behind a line changes nothing. -/
theorem ofText_comment_of_plain (ends : behind = [] ∨ behind.head? = some '\n')
    (quiet : Unbroken comment) (slashless : ¬EndsInSlash before)
    (feed : before.getLast? ≠ some '\r' ∨ behind = []) :
    ofText (before ++ '/' :: '/' :: comment ++ behind) = ofText (before ++ behind) := by
  obtain ⟨front, start, split, unbroken⟩ := exists_lastPiece before
  have whole := unbroken.append_comment quiet
  have apart : ¬((lastPiece before).getLast? = some '/' ∧ NoComment (lastPiece before)) :=
    fun both => slashless ⟨both.1, both.2⟩
  have words := congrArg Text.words (dropComment_append_comment apart comment)
  clear apart slashless
  generalize lastPiece before = line at *
  subst split
  have also : front.getLast? ≠ some '\r' ∨ (line ++ behind).head? ≠ some '\n' := by
    rcases eq_or_ne line [] with rfl | filled
    · rw [List.append_nil] at feed
      refine feed.imp_right fun none => ?_
      rw [none]
      exact nofun
    · exact .inr (head?_ne_feed filled unbroken behind)
  have same := marks_around start whole unbroken ends
    (.inr (head?_ne_feed (by simp) whole behind)) also words
  apply ofText_congr
  simpa only [List.append_assoc] using same

/-- A slash at the end of a line is taken into a comment behind it. -/
theorem ofText_comment_of_slash (ends : behind = [] ∨ behind.head? = some '\n')
    (quiet : Unbroken comment) (slash : EndsInSlash before) :
    ofText (before ++ '/' :: '/' :: comment ++ behind) =
      ofText (before.dropLast ++ ' ' :: behind) := by
  obtain ⟨front, start, split, unbroken⟩ := exists_lastPiece before
  obtain ⟨slash, bare⟩ := slash
  generalize lastPiece before = line at *
  subst split
  obtain ⟨line, rfl⟩ := List.getLast?_eq_some_iff.mp slash
  have whole := unbroken.append_comment quiet
  have blank : Unbroken [' '] := by decide
  have sound : Unbroken (line ++ [' ']) :=
    List.forall_mem_append.mpr ⟨(List.forall_mem_append.mp unbroken).1, blank⟩
  have same := marks_around start whole sound ends (.inr (head?_ne_feed (by simp) whole behind))
    (.inr (head?_ne_feed (by simp) sound behind)) (words_append_slash bare comment)
  apply ofText_congr
  rw [← List.append_assoc front, List.dropLast_concat]
  simpa only [List.append_assoc, List.singleton_append] using same

/-- Behind a carriage return a comment is a line of its own. -/
theorem ofText_comment_of_return (ends : behind.head? = some '\n')
    (quiet : Unbroken comment) (returned : before.getLast? = some '\r') :
    ofText (before ++ '/' :: '/' :: comment ++ behind) =
      (ofText (before ++ behind)).mapError
        (Fault.renumber (insertLine (unicodeLines before).length)) := by
  have start : AtLineStart before := by
    intro c last
    rw [returned, Option.mem_some] at last
    exact last ▸ .inl rfl
  have empty : Unbroken [] := nofun
  have unbroken : Unbroken ('/' :: '/' :: comment) := empty.append_comment quiet
  obtain ⟨rest, rfl⟩ := List.head?_eq_some_iff.mp ends
  have own : pieces (before ++ '/' :: '/' :: comment ++ '\n' :: rest) =
      unicodeLines before ++ ('/' :: '/' :: comment) :: pieces rest := by
    have around := pieces_around start unbroken (.inr ends) (.inr (by simp))
    rw [List.append_assoc, around, pieces_feed, unicodeLines_of_atLineStart start]
    rfl
  have shared : pieces (before ++ '\n' :: rest) = unicodeLines before ++ pieces rest := by
    rw [pieces_append_feed returned, unicodeLines_of_atLineStart start]
  generalize unicodeLines before = lines at *
  have front : ∀ i < lines.length, insertLine lines.length (1 + i) = 1 + i :=
    fun i low => if_pos (by omega)
  have further : ∀ i < (pieces rest).length,
      insertLine lines.length (1 + lines.length + i) = 1 + lines.length + 1 + i := by
    intro i _
    rw [insertLine, if_neg (by omega)]
    omega
  apply ofText_renumber
  rw [marks_eq_pieces, marks_eq_pieces, own, shared, numberedWords_append, numberedWords_append,
    List.map_append, numberedWords_renumber front, numberedWords_renumber further,
    numberedWords_cons, dropComment_slashes]
  rfl

/-- What a comment at the end of a line changes, the end of a line being the end of the text or in
front of a line feed. The image, or the fault, is that of the text without the comment, if the line
does not end in a slash outside comments or in a carriage return. Such a slash is taken into the
comment, as if a blank stood for it. Behind a carriage return the comment is a line of its own, and
the number of a fault behind it is greater by one. -/
theorem ofText_comment (ends : behind = [] ∨ behind.head? = some '\n')
    (quiet : Unbroken comment) :
    (¬EndsInSlash before → before.getLast? ≠ some '\r' ∨ behind = [] →
      ofText (before ++ '/' :: '/' :: comment ++ behind) = ofText (before ++ behind)) ∧
    (EndsInSlash before →
      ofText (before ++ '/' :: '/' :: comment ++ behind) =
        ofText (before.dropLast ++ ' ' :: behind)) ∧
    (before.getLast? = some '\r' → behind ≠ [] →
      ofText (before ++ '/' :: '/' :: comment ++ behind) =
        (ofText (before ++ behind)).mapError
          (Fault.renumber (insertLine (unicodeLines before).length))) :=
  ⟨ofText_comment_of_plain ends quiet, ofText_comment_of_slash ends quiet,
    fun returned more => ofText_comment_of_return (ends.resolve_left more) quiet returned⟩

end Comment

/-- A comment with slashes in it, behind the second of three lines, and the fault of the third. -/
theorem comment_keeps_fault :
    ofText ("1\r\n2".toList ++ '/' :: '/' :: " two // words".toList ++ "\nx".toList) =
        ofText ("1\r\n2".toList ++ "\nx".toList) ∧
      ofText ("1\r\n2".toList ++ "\nx".toList) = .error ⟨3, "x"⟩ := by
  have plain : ¬EndsInSlash "1\r\n2".toList := fun slash => absurd slash.slash (by decide)
  have ends : "\nx".toList = [] ∨ "\nx".toList.head? = some '\n' := by decide
  have quiet : Unbroken " two // words".toList := by decide
  have feed : "1\r\n2".toList.getLast? ≠ some '\r' ∨ "\nx".toList = [] := by decide
  exact ⟨(ofText_comment ends quiet).1 plain feed, by decide +kernel⟩

/-- Comments that change something: one behind a slash, one behind a carriage return, and one that a
vertical tab cuts in two. -/
theorem comments_that_count :
    (ofText "12/".toList = .error ⟨1, "12/"⟩ ∧ ofText "12///c".toList = .ok ⟨[(0, 0x12)]⟩) ∧
    (ofText "1\r\nx".toList = .error ⟨2, "x"⟩ ∧ ofText "1\r//c\nx".toList = .error ⟨3, "x"⟩) ∧
    (ofText "1".toList = .ok ⟨[(0, 1)]⟩ ∧
      ofText "1//c\u000b2".toList = .ok ⟨[(0, 1), (1, 2)]⟩) := by
  decide +kernel

end Image

end BusScript
