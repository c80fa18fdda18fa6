import BusScript.Proofs.Script.Reading

/-!
# What a script gives out

What a source gives out is determined by the text of the script: the content of each physical line
that has any (`Stripped`), under the position of the line (`Lined`). It does not matter whether the
lines are taken by an iteration or asked for one by one (`Source.Asked`), nor whether the text is in
memory or in a file (`Source.Fresh`). A file reads a carriage return as a line end of its own, so
the two agree where each carriage return belongs to a line feed (`ReturnsFed`).
-/

namespace BusScript.Script

open Text

/-! ## The content of a line -/

/-- The content of a line is what stands before the first `#`, without the spaces, tabs, carriage
returns and line feeds at both ends. -/
inductive Stripped : List Char → List Char → Prop
  | cut {front content back comment : List Char} :
    '#' ∉ front ++ content ++ back → (∀ c, comment.head? = some c → c = '#') →
      (∀ c ∈ front, isTrimmed c = true) → (∀ c ∈ back, isTrimmed c = true) →
      Bare isTrimmed content → Stripped (front ++ content ++ back ++ comment) content

theorem stripLine_eq_iff {line content : List Char} :
    stripLine line = content ↔ Stripped line content := by
  constructor
  · intro stripped
    obtain ⟨bare, front, back, before, after, split⟩ := trim_eq_iff.mp stripped
    have clear : '#' ∉ line.takeWhile (fun c => c != '#') := by
      intro member
      simpa using List.mem_takeWhile_imp member
    have comment : ∀ c, (line.dropWhile (fun c => c != '#')).head? = some c → c = '#' := by
      intro c first
      have stopped := List.head?_dropWhile_not (fun c => c != '#') line
      rw [first] at stopped
      simpa using stopped
    rw [← List.takeWhile_append_dropWhile (p := fun c => c != '#') (l := line)]
    rw [split] at clear ⊢
    exact .cut clear comment before after bare
  · intro stripped
    cases stripped with
    | @cut front content back comment clear starts before after bare =>
      have plain : ∀ c ∈ front ++ content ++ back, (c != '#') = true := by
        intro c member
        rw [bne_iff_ne]
        rintro rfl
        exact clear member
      have stop : ∀ c, comment.head? = some c → (c != '#') = false := by
        intro c first
        simp [starts c first]
      unfold stripLine
      rw [(takeWhile_append plain stop).1]
      exact trim_of_bare before bare after

/-- A content is its own content. -/
theorem stripLine_stripLine (line : List Char) : stripLine (stripLine line) = stripLine line := by
  have stripped := stripLine_eq_iff.mp (rfl : stripLine line = stripLine line)
  generalize stripLine line = content at stripped ⊢
  cases stripped with
  | @cut front _ back _ clear _ _ _ bare =>
    rw [List.mem_append, List.mem_append, not_or, not_or] at clear
    rw [stripLine_eq_iff]
    simpa using @Stripped.cut [] content [] [] (by simpa using clear.1.2) nofun nofun nofun bare

/-! ## Physical lines -/

/-- The physical lines of a text: each but the last is closed by the only line feed in it, and the
last may lack it. -/
inductive Lined : List Char → List (List Char) → Prop
  | ended : Lined [] []
  | last {line : List Char} : line ≠ [] → '\n' ∉ line → Lined line [line]
  | feed {line rest : List Char} {physical : List (List Char)} :
    '\n' ∉ line → Lined rest physical →
      Lined (line ++ '\n' :: rest) ((line ++ ['\n']) :: physical)

theorem exists_lined (text : List Char) : ∃ physical, Lined text physical := by
  induction size : text.length using Nat.strongRecOn generalizing text with
  | ind size ih =>
    rcases feed_or_solid text with ⟨line, rest, rfl, solid⟩ | solid
    · rw [List.length_append, List.length_cons] at size
      obtain ⟨physical, lined⟩ := ih rest.length (by omega) rest rfl
      exact ⟨_, .feed (List.forall_mem_ne'.mp solid) lined⟩
    · rcases eq_or_ne text [] with rfl | some
      · exact ⟨[], .ended⟩
      · exact ⟨[text], .last some (List.forall_mem_ne'.mp solid)⟩

/-- The lines of a text have the contents of its physical lines. -/
theorem Lined.map_stripLine {text : List Char} {physical : List (List Char)}
    (lined : Lined text physical) :
    (lines text).map stripLine = physical.map stripLine := by
  induction lined with
  | ended => rfl
  | last some clear => rw [lines_of_solid (List.forall_mem_ne'.mpr clear) some]
  | feed clear _ ih =>
    rw [lines_feed (List.forall_mem_ne'.mpr clear), List.map_cons, List.map_cons, stripLine_feed,
      ih]

/-- Lines with the same contents are numbered alike. -/
theorem numbered_congr {first second : List (List Char)}
    (same : first.map stripLine = second.map stripLine) (number : Nat) :
    numbered number first = numbered number second := by
  induction first generalizing second number with
  | nil =>
    rw [List.map_nil, eq_comm, List.map_eq_nil_iff] at same
    rw [same]
  | cons line rest ih =>
    obtain ⟨other, more, rfl, content, same⟩ := List.map_eq_cons_iff.mp same.symm
    unfold numbered
    rw [content, ih same.symm]

/-! ## Line ends -/

/-- Each carriage return has a line feed right behind it. -/
def ReturnsFed (text : List Char) : Prop :=
  ∀ before after, text = before ++ '\r' :: after → after.head? = some '\n'

theorem returnsFed_cons_iff {c : Char} {rest : List Char} :
    ReturnsFed (c :: rest) ↔ (c = '\r' → rest.head? = some '\n') ∧ ReturnsFed rest := by
  constructor
  · intro fed
    refine ⟨?_, fun before after split => fed (c :: before) after (congrArg (c :: ·) split)⟩
    rintro rfl
    exact fed [] rest rfl
  · rintro ⟨first, fed⟩ (- | ⟨d, before⟩) after split
    · cases split
      exact first rfl
    · cases split
      exact fed before after rfl

instance ReturnsFed.decidable : (text : List Char) → Decidable (ReturnsFed text)
  | [] => isTrue fun before _ split => by cases before <;> cases split
  | c :: rest =>
    have := ReturnsFed.decidable rest
    decidable_of_iff _ returnsFed_cons_iff.symm

theorem unifyNewlines_of_clear {text : List Char} (clear : '\r' ∉ text) :
    unifyNewlines text = text := by
  induction text with
  | nil => rfl
  | cons c rest ih =>
    rw [List.mem_cons, not_or] at clear
    rw [unifyNewlines_other (Ne.symm clear.1), ih clear.2]

/-- The return that a line may end with goes, and the content of the line does not change. -/
theorem exists_unified {line rest : List Char} (solid : ∀ c ∈ line, c ≠ '\n')
    (fed : ReturnsFed (line ++ '\n' :: rest)) :
    ∃ unified, unifyNewlines (line ++ '\n' :: rest) = unified ++ '\n' :: unifyNewlines rest ∧
      (∀ c ∈ unified, c ≠ '\n') ∧ stripLine unified = stripLine line := by
  by_cases returns : '\r' ∈ line
  · obtain ⟨front, back, rfl, clear⟩ := List.eq_append_cons_of_mem returns
    have next := fed front (back ++ '\n' :: rest) (by simp)
    obtain rfl : back = [] := by
      rcases back with - | ⟨c, back⟩
      · rfl
      · cases next
        exact absurd rfl (solid '\n' (by simp))
    refine ⟨front, ?_, (List.forall_mem_append.mp solid).1, (stripLine_concat rfl front).symm⟩
    rw [List.append_assoc, unifyNewlines_append (.inr (by simp)), unifyNewlines_of_clear clear]
    rfl
  · have last : line.getLast? ≠ some '\r' := fun last => returns (List.mem_of_getLast? last)
    refine ⟨line, ?_, solid, rfl⟩
    rw [unifyNewlines_append (.inl last), unifyNewlines_of_clear returns,
      unifyNewlines_other (by decide)]

/-- Unified line ends leave the contents of all lines. -/
theorem map_stripLine_unifyNewlines {text : List Char} (fed : ReturnsFed text) :
    (lines (unifyNewlines text)).map stripLine = (lines text).map stripLine := by
  induction size : text.length using Nat.strongRecOn generalizing text with
  | ind size ih =>
    rcases feed_or_solid text with ⟨line, rest, rfl, solid⟩ | solid
    · have onward : ReturnsFed rest := fun before after split =>
        fed (line ++ '\n' :: before) after (by rw [split, List.append_assoc, List.cons_append])
      obtain ⟨unified, same, clear, content⟩ := exists_unified solid fed
      rw [List.length_append, List.length_cons] at size
      rw [same, lines_feed clear, lines_feed solid, List.map_cons, List.map_cons, content,
        ih rest.length (by omega) onward rfl]
    · have clear : '\r' ∉ text := by
        intro member
        obtain ⟨before, after, split⟩ := List.append_of_mem member
        have next := List.mem_of_head? (fed before after split)
        exact solid '\n' (by simp [split, next]) rfl
      rw [unifyNewlines_of_clear clear]

/-! ## Asking for lines -/

namespace Source

/-- Asked for lines until there are none, a source gives out these, each under the number of the
line that was read last. -/
inductive Asked (tree : Tree) : Source → List (Nat × String) → Source → Prop
  | ended {source last : Source} : source.next tree = (.ok none, last) → Asked tree source [] last
  | line {source later last : Source} {content : String} {given : List (Nat × String)} :
    source.next tree = (.ok (some content), later) → Asked tree later given last →
      Asked tree source ((later.lineNumber, content) :: given) last

/-- The source after so many calls for a line. -/
def afterCalls (tree : Tree) (times : Nat) (source : Source) : Source :=
  (fun source => (source.next tree).2)^[times] source

theorem asked_of_left (tree : Tree) {source : Source} {physical : List (List Char)}
    (left : source.Left physical) :
    ∃ last, Asked tree source (numbered source.lineNumber physical) last ∧ last.Left [] ∧
      last.lineNumber = source.lineNumber + physical.length := by
  -- On the number of lines that are left, of which one call may read many.
  induction size : physical.length using Nat.strongRecOn generalizing source physical with
  | ind size ih =>
    obtain ⟨content, later, rest, count, gives, onward, counts, found⟩ := next_of_left tree left
    have parts := found.length_eq
    rw [found.numbered_eq, ← counts]
    cases content with
    | none =>
      have all := found.idle_of_none.1
      obtain rfl : rest = [] := List.length_eq_zero_iff.mp (by omega)
      exact ⟨later, .ended gives, onward, by omega⟩
    | some content =>
      have read := found.count_pos
      obtain ⟨last, asked, ended, all⟩ := ih rest.length (by omega) onward rfl
      exact ⟨last, .line gives asked, ended, by omega⟩

theorem Asked.of_opened {tree : Tree} {source opened last : Source} {given : List (Nat × String)}
    (opens : source.opened tree = .ok opened) (asked : Asked tree opened given last) :
    Asked tree source given last := by
  have same := next_of_opened opens
  cases asked with
  | ended gives => exact .ended (same.trans gives)
  | line gives later => exact .line (same.trans gives) later

theorem next_of_left_nil (tree : Tree) {source : Source} (left : source.Left []) :
    ∃ later, source.next tree = (.ok none, later) ∧ later.Left [] ∧
      later.lineNumber = source.lineNumber := by
  obtain ⟨content, later, rest, count, gives, onward, counts, found⟩ := next_of_left tree left
  cases found
  exact ⟨later, gives, onward, counts⟩

/-- A source without lines stays without lines and does not count on. -/
theorem next_afterCalls_of_left_nil (tree : Tree) {source : Source} (left : source.Left [])
    (times : Nat) :
    ∃ later, (source.afterCalls tree times).next tree = (.ok none, later) ∧
      later.lineNumber = source.lineNumber := by
  unfold afterCalls
  induction times generalizing source with
  | zero =>
    obtain ⟨later, gives, -, same⟩ := next_of_left_nil tree left
    exact ⟨later, gives, same⟩
  | succ times ih =>
    obtain ⟨later, gives, onward, same⟩ := next_of_left_nil tree left
    rw [Function.iterate_succ_apply, gives, ← same]
    exact ih onward

/-! ## Scripts -/

/-- A source that nothing was read from, over a text in memory or over a file with the text. -/
inductive Fresh (tree : Tree) (text : String) : Source → Prop
  | text : Fresh tree text (.ofText text)
  | file {path : String} : tree.read path = .ok (Utf8.encode text.toList) →
    Fresh tree text (.ofFile path)

theorem Fresh.exists_over {tree : Tree} {text : String} {source : Source}
    (fresh : Fresh tree text source) (fed : ReturnsFed text.toList) :
    ∃ physical, source.Over tree physical ∧
      physical.map stripLine = (lines text.toList).map stripLine := by
  cases fresh with
  | text => exact ⟨_, .text text, rfl⟩
  | file given =>
    exact ⟨_, .file given (Utf8.decodeAll_encode _), map_stripLine_unifyNewlines fed⟩

end Source

/-- A fresh source over a text gives out the contents of the physical lines of the text under the
positions of the lines, and counts all of them: in an iteration as well as line by line, from a file
as well as from memory, if each carriage return belongs to a line feed. Where no line is left there
will be none later. The content of a line is what stands before the first `#`, trimmed, and it is
its own content. -/
theorem gives_physical_lines {text : String} (fed : ReturnsFed text.toList) :
    (∃ physical, Lined text.toList physical) ∧
    (∀ physical, Lined text.toList physical →
      ∀ (tree : Tree) (source : Source), source.Fresh tree text →
        (∃ last, source.readAll tree = (numbered 0 physical, none, last) ∧
          last.lineNumber = physical.length) ∧
        ∃ last, source.Asked tree (numbered 0 physical) last ∧
          last.lineNumber = physical.length ∧
          ∀ times, ∃ later, (last.afterCalls tree times).next tree = (.ok none, later) ∧
            later.lineNumber = physical.length) ∧
    ∀ line, (∀ content, stripLine line = content ↔ Stripped line content) ∧
      stripLine (stripLine line) = stripLine line := by
  refine ⟨exists_lined _, ?_, fun line => ⟨fun _ => stripLine_eq_iff, stripLine_stripLine line⟩⟩
  intro physical lined tree source fresh
  obtain ⟨read, reads, unified⟩ := fresh.exists_over fed
  have contents := unified.trans lined.map_stripLine
  have long : read.length = physical.length := by simpa using congrArg List.length contents
  obtain ⟨opened, opens, left, first⟩ := reads.opens
  obtain ⟨closed, all, counts⟩ := Source.readAll_of_left opens left
  obtain ⟨last, asked, ended, counted⟩ := Source.asked_of_left tree left
  rw [first, Nat.zero_add, long] at counts counted
  rw [first, numbered_congr contents] at all asked
  refine ⟨⟨closed, all, counts⟩, last, asked.of_opened opens, counted, fun times => ?_⟩
  obtain ⟨later, none, same⟩ := Source.next_afterCalls_of_left_nil tree ended times
  exact ⟨later, none, same.trans counted⟩

/-- A comment, a blank line and a last line without a line feed, from a file and from memory. -/
theorem gives_lines_of_script :
    let text := "WAIT 1 # on\r\n \t\r\nWAIT 2"
    let tree : Tree := ⟨[(["a.stim"], .file (Utf8.encode text.toList))]⟩
    let given := [(1, "WAIT 1"), (3, "WAIT 2")]
    (∃ last, (Source.ofFile "a.stim").readAll tree = (given, none, last) ∧ last.lineNumber = 3) ∧
      ∃ last, (Source.ofText text).Asked tree given last ∧ last.lineNumber = 3 := by
  intro text tree given
  have fed : ReturnsFed text.toList := by decide +kernel
  have parts : "WAIT 1 # on\r".toList ++ '\n' :: (" \t\r".toList ++ '\n' :: "WAIT 2".toList) =
      text.toList := by decide +kernel
  have lined := @Lined.feed "WAIT 1 # on\r".toList _ _ (by decide) <|
    @Lined.feed " \t\r".toList _ _ (by decide) <|
      @Lined.last "WAIT 2".toList (by decide) (by decide)
  rw [parts] at lined
  have file : (Source.ofFile "a.stim").Fresh tree text := .file (by decide +kernel)
  have reads := (gives_physical_lines fed).2.1 _ lined tree
  obtain ⟨last, asked, counts, -⟩ := (reads _ .text).2
  exact ⟨(reads _ file).1, last, asked, counts⟩

end BusScript.Script
