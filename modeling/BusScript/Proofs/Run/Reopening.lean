import BusScript.Proofs.Run.Inserted
import BusScript.Proofs.Script.Numbers

/-!
# Scripts that are read again

A file is opened, asked for lines and closed any number of times (`Source.Used`). Each opening
starts the file over, while its source counts on. So a line stands under its position in the file
and, on top of that, all that was counted before the file was closed last
(`Engine.line_numbers_of_used`): the number is the position as long as no line had been read by
then.
-/

namespace BusScript

open Script

namespace Script.Source

open Text

/-! ## Uses -/

/-- A source over the file of a path that has been opened, asked for lines and closed in any order,
and what it had counted when it was closed last. An iteration that is left early and a block that
closes the source behind it are made of these. -/
inductive Used (tree : Tree) (path : String) : Nat → Source → Prop
  | fresh : Used tree path 0 (.ofFile path)
  | opened {carried : Nat} {source later : Source} :
    Used tree path carried source → source.opened tree = .ok later → Used tree path carried later
  | next {carried : Nat} {source later : Source} {content : Except SourceFault (Option String)} :
    Used tree path carried source → source.next tree = (content, later) →
      Used tree path carried later
  | closed {carried : Nat} {source : Source} :
    Used tree path carried source → Used tree path source.lineNumber source.closed

theorem Used.collect {tree : Tree} {path : String} {carried : Nat} {source : Source}
    (used : Used tree path carried source) (limit : Nat) :
    Used tree path carried (source.collect tree limit).2.2 := by
  induction limit generalizing source with
  | zero => exact used
  | succ limit ih =>
    unfold Source.collect
    rcases given : source.next tree with ⟨content, later⟩
    rcases content with fault | - | line
    · exact used.next given
    · exact used.next given
    · exact ih (used.next given)

/-- A whole iteration is one more use. It closes the file. -/
theorem Used.readAll {tree : Tree} {path : String} {carried : Nat} {source : Source}
    (used : Used tree path carried source) :
    Used tree path (source.readAll tree).2.2.lineNumber (source.readAll tree).2.2 := by
  unfold Source.readAll
  cases opens : source.opened tree with
  | error fault =>
    dsimp only
    rw [lineNumber_closed]
    exact used.closed
  | ok opened =>
    dsimp only
    rw [lineNumber_closed]
    exact ((used.opened opens).collect _).closed

/-! ## Positions -/

/-- The source has read so many of the physical lines since its file was opened. A closed file will
be read from its first line. -/
inductive Stands (physical : List (List Char)) (path : String) : Nat → Source → Prop
  | closed (first : Nat) : Stands physical path 0 ⟨.file path none, first⟩
  | opened {read first : Nat} {reader : Reader} {text : List Char} :
    read ≤ physical.length → reader.Holds text → lines text = physical.drop read →
      Stands physical path read ⟨.file path (some reader), first⟩

/-- What a source that stands behind so many physical lines gives out next: the first of the others
that has content, under its position and what is carried. -/
inductive Gives (physical : List (List Char)) (path : String) (carried read : Nat) :
    Option String → Source → Prop
  | line {i : Nat} {line : List Char} {later : Source} :
    read ≤ i → physical[i]? = some line → stripLine line ≠ [] →
      (∀ j other, read ≤ j → j < i → physical[j]? = some other → stripLine other = []) →
      Stands physical path (i + 1) later → later.lineNumber = carried + (i + 1) →
      Gives physical path carried read (some (String.ofList (stripLine line))) later
  | ended {later : Source} :
    (∀ j other, read ≤ j → physical[j]? = some other → stripLine other = []) →
      Stands physical path physical.length later →
      later.lineNumber = carried + physical.length →
      Gives physical path carried read none later

variable {tree : Tree} {path : String} {physical : List (List Char)} {carried read : Nat}
  {source : Source}

theorem Stands.closed_of (stands : Stands physical path read source) :
    Stands physical path 0 source.closed := by
  cases stands with
  | closed first => exact .closed first
  | opened => exact .closed _

/-- An open file stays open when it is asked for a line. -/
theorem exists_next_of_open (tree : Tree) (path : String) (reader : Reader) (first : Nat) :
    ∃ content last number, (⟨.file path (some reader), first⟩ : Source).next tree =
      (content, ⟨.file path (some last), number⟩) := by
  unfold next opened
  dsimp only
  rcases firstContentOf (linesLeft reader) 0 reader with ⟨fault | content, last, count⟩
  · exact ⟨_, last, _, rfl⟩
  · exact ⟨_, last, _, rfl⟩

/-- The lines behind those that were read are the ones left, once the file is open. -/
theorem Stands.opens (reads : (ofFile path).Over tree physical)
    (stands : Stands physical path read source) :
    read ≤ physical.length ∧ ∃ reader,
      source.opened tree = .ok ⟨.file path (some reader), source.lineNumber⟩ ∧
      Left ⟨.file path (some reader), source.lineNumber⟩ (physical.drop read) := by
  cases stands with
  | closed first =>
    obtain - | ⟨given, decoded⟩ := reads
    exact ⟨Nat.zero_le _, _, opened_ofFile given first, _, holds_of_decodeAll decoded, rfl⟩
  | opened few holds same => exact ⟨few, _, rfl, _, holds, same.symm⟩

/-- One line of a file that can be read: the source searches the lines behind those that were
read. -/
theorem Stands.next (reads : (ofFile path).Over tree physical)
    (stands : Stands physical path read source) :
    ∃ content later count, source.next tree = (.ok (content.map String.ofList), later) ∧
      Stands physical path (read + count) later ∧
      later.lineNumber = source.lineNumber + count ∧
      Found (physical.drop read) count content (physical.drop (read + count)) := by
  obtain ⟨few, reader, opens, left⟩ := stands.opens reads
  obtain ⟨content, later, rest, count, gives, onward, counts, found⟩ := next_of_left tree left
  obtain ⟨_, last, number, stays⟩ := exists_next_of_open tree path reader source.lineNumber
  rw [gives] at stays
  cases stays
  obtain ⟨most, rfl⟩ := found.rest_eq
  rw [List.drop_drop] at onward found
  rw [List.length_drop] at most
  obtain ⟨text, holds, same⟩ := onward
  exact ⟨content, _, count, (next_of_opened opens).trans gives,
    .opened (by omega) holds same.symm, counts, found⟩

/-- After any uses, a source has counted what it read since the file was opened and what it had
counted before that. -/
theorem exists_stands_of_used (reads : (ofFile path).Over tree physical)
    (used : Used tree path carried source) :
    ∃ read, Stands physical path read source ∧ source.lineNumber = carried + read := by
  induction used with
  | fresh => exact ⟨0, .closed 0, rfl⟩
  | opened _ opens ih =>
    obtain ⟨read, stands, counted⟩ := ih
    obtain ⟨few, reader, found, text, holds, same⟩ := stands.opens reads
    rw [opens] at found
    cases found
    exact ⟨read, .opened few holds same.symm, counted⟩
  | next _ gives ih =>
    obtain ⟨read, stands, counted⟩ := ih
    obtain ⟨content, later, count, found, onward, counts, -⟩ := stands.next reads
    rw [gives] at found
    cases found
    exact ⟨read + count, onward, by rw [counts, counted, Nat.add_assoc]⟩
  | closed _ ih =>
    obtain ⟨read, stands, -⟩ := ih
    exact ⟨0, stands.closed_of, lineNumber_closed _⟩

/-- What a source gives out next follows from where it stands. -/
theorem Stands.gives (reads : (ofFile path).Over tree physical)
    (stands : Stands physical path read source) (counted : source.lineNumber = carried + read) :
    ∃ content later, source.next tree = (.ok content, later) ∧
      Gives physical path carried read content later := by
  obtain ⟨content, later, count, gives, onward, counts, found⟩ := stands.next reads
  have few := (stands.opens reads).1
  refine ⟨content.map String.ofList, later, gives, ?_⟩
  cases content with
  | none =>
    obtain ⟨all, idle⟩ := found.idle_of_none
    rw [List.length_drop] at all
    refine .ended ?_ ?_ (by omega)
    · intro j other behind at_
      apply idle
      rw [List.mem_iff_getElem?]
      refine ⟨j - read, ?_⟩
      rw [List.getElem?_drop, Nat.add_sub_cancel' behind, at_]
    · rwa [show physical.length = read + count by omega]
  | some content =>
    have some_read := found.count_pos
    obtain ⟨line, at_, rfl, some, before⟩ := found.line_of_some
    rw [List.getElem?_drop] at at_
    refine .line (Nat.le_add_right read (count - 1)) at_ some ?_ ?_ (by omega)
    · intro j other behind early here
      apply before (j - read) other (by omega)
      rw [List.getElem?_drop, Nat.add_sub_cancel' behind, here]
    · rwa [show read + (count - 1) + 1 = read + count by omega]

/-- An iteration gives out the lines behind those that were read, and counts all of them. -/
theorem Stands.readAll_eq (reads : (ofFile path).Over tree physical)
    (stands : Stands physical path read source) (counted : source.lineNumber = carried + read) :
    ∃ last, source.readAll tree = (numbered (carried + read) (physical.drop read), none, last) ∧
      last.lineNumber = carried + physical.length := by
  obtain ⟨few, reader, opens, left⟩ := stands.opens reads
  obtain ⟨last, all, counts⟩ := readAll_of_left opens left
  dsimp only at all counts
  rw [counted] at all counts
  rw [List.length_drop] at counts
  exact ⟨last, all, by omega⟩

/-- Whole iterations, one after the other, start the file over and number on. -/
theorem readAll_of_iterate (reads : (ofFile path).Over tree physical) (times : Nat) :
    ∃ last, ((fun source => (source.readAll tree).2.2)^[times] (ofFile path)).readAll tree =
      (numbered (times * physical.length) physical, none, last) := by
  have again (times : Nat) : ∃ source,
      (fun source => (source.readAll tree).2.2)^[times] (ofFile path) = source ∧
      Used tree path (times * physical.length) source ∧ Stands physical path 0 source ∧
      source.lineNumber = times * physical.length + 0 := by
    induction times with
    | zero =>
      rw [Nat.zero_mul]
      exact ⟨_, rfl, .fresh, .closed 0, rfl⟩
    | succ times ih =>
      obtain ⟨source, same, used, stands, counted⟩ := ih
      obtain ⟨last, all, counts⟩ := stands.readAll_eq reads counted
      have onward := used.readAll
      rw [all, counts] at onward
      obtain ⟨read, stands, counted⟩ := exists_stands_of_used reads onward
      obtain rfl : read = 0 := Nat.add_left_cancel (counted.symm.trans counts)
      rw [Function.iterate_succ_apply', same, all, Nat.succ_mul]
      exact ⟨last, rfl, onward, stands, counted⟩
  obtain ⟨source, same, -, stands, counted⟩ := again times
  obtain ⟨last, all, -⟩ := stands.readAll_eq reads counted
  rw [same]
  exact ⟨last, all⟩

end Script.Source

namespace Engine

open Script.Source

variable {tree : Tree} {path : String} {physical : List (List Char)} {carried : Nat}
  {source : Source}

/-- However a source over the file of a text has been used, it reads on behind the lines that it
has read since the file was opened. A line that it gives out stands under its physical position and
what the source had counted when it was closed last: each line that is asked for, each line of a
whole iteration, which is a use in turn, and each line and each record of a run. -/
theorem line_numbers_of_used (reads : (ofFile path).Over tree physical)
    (used : Used tree path carried source) :
    ∃ read, Stands physical path read source ∧ source.lineNumber = carried + read ∧
      (∃ content later, source.next tree = (.ok content, later) ∧
        Gives physical path carried read content later) ∧
      (∃ last, source.readAll tree = (numbered (carried + read) (physical.drop read), none, last) ∧
        last.lineNumber = carried + physical.length ∧ Used tree path last.lineNumber last) ∧
      ∀ {σ : Type} (e : Engine σ),
        (e.run tree source = do
          Run.say .info .engine s!"Running stimulus script {source.name}"
          e.executeLines (numbered (carried + read) (physical.drop read))
          e.settle
          return (← get).results) ∧
        ∀ {s t : RunState σ} {result : Except RunFault Results}, s.traces = #[] →
          s.preloads = .idle none → Run.Ends (e.run tree source) s result t →
          ∀ record ∈ t.traces, ∃ i line, read ≤ i ∧ physical[i]? = some line ∧
            stripLine line ≠ [] ∧ record.line = some ((carried + (i + 1) : Nat) : Int) := by
  obtain ⟨read, stands, counted⟩ := exists_stands_of_used reads used
  obtain ⟨last, all, counts⟩ := stands.readAll_eq reads counted
  have again := used.readAll
  rw [all] at again
  refine ⟨read, stands, counted, stands.gives reads counted, ⟨last, all, counts, again⟩, ?_⟩
  intro σ e
  refine ⟨run_of_readable all, ?_⟩
  intro s t result untraced unloaded ended record member
  obtain ⟨⟨number, content⟩, listed, same⟩ := line_of_mem_traces ended untraced unloaded member
  rw [all] at listed
  obtain ⟨i, line, at_, position, some, -⟩ := mem_numbered_iff.mp listed
  rw [List.getElem?_drop] at at_
  refine ⟨read + i, line, Nat.le_add_right read i, at_, some, ?_⟩
  rw [same, position]
  congr 2
  omega

/-- A file that is closed behind its first line is read from there again, under the number 2. -/
theorem line_numbers_of_reopened_file :
    let tree : Tree := ⟨[(["a.stim"], .file (Text.Utf8.encode "WAIT 1\nWAIT 2\n".toList))]⟩
    let source := ((ofFile "a.stim").next tree).2.closed
    ∃ later last, source.next tree = (.ok (some "WAIT 1"), later) ∧ later.lineNumber = 2 ∧
      source.readAll tree = ([(2, "WAIT 1"), (3, "WAIT 2")], none, last) ∧
      last.lineNumber = 3 := by
  intro tree source
  have physical : Text.lines (Text.unifyNewlines "WAIT 1\nWAIT 2\n".toList) =
      ["WAIT 1".toList, "WAIT 2".toList] := by decide +kernel
  have given : tree.read "a.stim" = .ok (Text.Utf8.encode "WAIT 1\nWAIT 2\n".toList) := by
    decide +kernel
  have reads : (ofFile "a.stim").Over tree ["WAIT 1".toList, "WAIT 2".toList] := by
    rw [← physical]
    exact .file given (by decide +kernel)
  have closed : source = ⟨.file "a.stim" none, 1⟩ := by decide +kernel
  have asked : Used tree "a.stim" 0 ((ofFile "a.stim").next tree).2 :=
    .next .fresh (Prod.eta _).symm
  have counted : ((ofFile "a.stim").next tree).2.lineNumber = 1 := by decide +kernel
  have used : Used tree "a.stim" 1 source := counted ▸ asked.closed
  have some : stripLine "WAIT 1".toList ≠ [] := by decide +kernel
  obtain ⟨read, stands, -, ⟨content, later, gives, given⟩, ⟨last, all, counts, -⟩, -⟩ :=
    line_numbers_of_used reads used
  rw [closed] at stands
  cases stands
  have same : content = Option.some "WAIT 1" ∧ later.lineNumber = 2 := by
    cases given with
    | @line i line _ _ at_ _ before _ counts =>
      rcases i.eq_zero_or_pos with rfl | behind
      · cases at_
        exact ⟨by decide +kernel, counts⟩
      · exact absurd (before 0 _ (Nat.le_refl 0) behind rfl) some
    | ended idle => exact absurd (idle 0 _ (Nat.le_refl 0) rfl) some
  have lines : numbered (1 + 0) (["WAIT 1".toList, "WAIT 2".toList].drop 0) =
      [(2, "WAIT 1"), (3, "WAIT 2")] := by decide +kernel
  rw [lines] at all
  rw [same.1] at gives
  exact ⟨later, last, gives, same.2, all, counts⟩

/-- The second of two iterations gives out the only line of a file under the number 2. -/
theorem second_iteration_numbers_on :
    let tree : Tree := ⟨[(["a.stim"], .file (Text.Utf8.encode "WAIT 1\n".toList))]⟩
    let first := (ofFile "a.stim").readAll tree
    let second := first.2.2.readAll tree
    (ofFile "a.stim").Over tree ["WAIT 1".toList] ∧ first.1 = [(1, "WAIT 1")] ∧
      second.1 = [(2, "WAIT 1")] ∧ second.2.2.lineNumber = 2 := by
  intro tree first second
  have physical : Text.lines (Text.unifyNewlines "WAIT 1\n".toList) = ["WAIT 1".toList] := by
    decide +kernel
  have given : tree.read "a.stim" = .ok (Text.Utf8.encode "WAIT 1\n".toList) := by decide +kernel
  refine ⟨?_, by decide +kernel, by decide +kernel, by decide +kernel⟩
  rw [← physical]
  exact .file given (by decide +kernel)

end Engine

end BusScript
