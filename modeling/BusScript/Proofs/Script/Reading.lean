import Mathlib.Data.List.Basic
import BusScript.Proofs.Script.Physical
import BusScript.Proofs.Text.Decoding
import BusScript.Proofs.Text.Lines

/-!
# Reading files

A file is read block by block, and its lines are the lines of its text all the same. A reader holds
what it has not given out of the text (`Reader.Holds`); a block moves bytes to characters, a line
takes characters away, and neither changes what follows them. So a script in a file gives out the
lines that it gives out as a text.
-/

namespace BusScript.Script

open Text

/-- A carriage return that waits for what follows it. -/
def waiting (returns : Bool) : List Char :=
  if returns then ['\r'] else []

namespace Reader

/-- What a reader has not given out of a text. -/
def Holds (reader : Reader) (text : List Char) : Prop :=
  ∃ decoded, Utf8.Decodes (reader.held ++ reader.rest) decoded ∧
    text = reader.ready ++ unifyNewlines (waiting reader.returnWaits ++ decoded)

/-! ## Blocks -/

theorem waiting_append (returns : Bool) (text : List Char) :
    (if returns then '\r' :: text else text) = waiting returns ++ text := by
  cases returns <;> rfl

/-- Settled characters are followed by what followed them, and no return waits at the end. -/
theorem settleReturns_append (returns final : Bool) (text later : List Char)
    (ends : final = true → later = []) :
    (settleReturns returns final text).1 ++
        unifyNewlines (waiting (settleReturns returns final text).2 ++ later) =
      unifyNewlines (waiting returns ++ (text ++ later)) ∧
    (final = true → (settleReturns returns final text).2 = false) := by
  unfold settleReturns
  rw [waiting_append]
  split
  · rename_i none
    rw [Bool.and_eq_true, List.isEmpty_iff] at none
    obtain ⟨rfl, onward⟩ := none
    exact ⟨rfl, fun last => by rw [last] at onward; cases onward⟩
  · dsimp only
    split
    · rename_i waits
      rw [Bool.and_eq_true, decide_eq_true_eq] at waits
      obtain ⟨onward, last⟩ := waits
      refine ⟨?_, fun ended => by rw [ended] at onward; cases onward⟩
      have parts : (waiting returns ++ text).dropLast ++ '\r' :: later =
          waiting returns ++ text ++ later := by
        rw [List.append_cons, List.dropLast_append_getLast? '\r' last]
      rw [← List.append_assoc, ← parts]
      exact (unifyNewlines_append (.inr (by simp [waiting]))).symm
    · rename_i settles
      refine ⟨?_, fun _ => rfl⟩
      rcases Bool.eq_false_or_eq_true final with ended | onward
      · rw [ends ended, List.append_nil, List.append_nil]
        exact List.append_nil _
      · have last : (waiting returns ++ text).getLast? ≠ some '\r' := fun last =>
          settles (by rw [onward, last]; rfl)
        rw [← List.append_assoc]
        exact (unifyNewlines_append (.inl last)).symm

/-- A block of bytes makes up a part of the characters. It leaves bytes over only in the middle of a
character, so never behind the last block. -/
theorem exists_block_of_decodes {held rest : List UInt8} {decoded : List Char}
    (decodes : Utf8.Decodes (held ++ rest) decoded) :
    ∃ odd begun later, decoded = begun ++ later ∧
      Utf8.Decodes (odd ++ rest.drop blockSize) later ∧
      (Utf8.decodeFrom 0 (held ++ rest.take blockSize) = (begun, .complete) ∧ odd = [] ∨
        rest ≠ [] ∧ ∃ fault,
          Utf8.decodeFrom 0 (held ++ rest.take blockSize) = (begun, .unfinished odd fault)) ∧
      (rest = [] → odd = [] ∧ later = []) := by
  have blocks : Utf8.Decodes ((held ++ rest.take blockSize) ++ rest.drop blockSize) decoded := by
    rwa [List.append_assoc, List.take_append_drop]
  obtain ⟨odd, begun, later, rfl, remaining, ends⟩ := blocks.of_append 0
  by_cases none : rest = []
  · have complete := (Utf8.decodeFrom_complete_iff 0).mpr decodes
    rcases ends with ⟨first, nothing⟩ | ⟨fault, unfinished⟩
    · have last : later = [] := by
        rw [nothing, none, List.drop_nil] at remaining
        have decoded := (Utf8.decodeFrom_complete_iff 0).mpr remaining
        cases decoded
        rfl
      exact ⟨odd, begun, later, rfl, remaining, .inl ⟨first, nothing⟩, fun _ => ⟨nothing, last⟩⟩
    · rw [none, List.take_nil, ← none, complete] at unfinished
      cases congrArg Prod.snd unfinished
  · refine ⟨odd, begun, later, rfl, remaining, ?_, fun last => absurd last none⟩
    rcases ends with complete | unfinished
    · exact .inl complete
    · exact .inr ⟨none, unfinished⟩

theorem nextBlock_of_holds {reader : Reader} {text : List Char} (holds : reader.Holds text) :
    ∃ next later, reader.nextBlock = .ok next ∧ text = reader.ready ++ later ∧
      next.Holds later ∧
      (reader.rest = [] → next.ready = later ∧ ∀ ready, { next with ready }.Holds ready) := by
  obtain ⟨decoded, decodes, rfl⟩ := holds
  obtain ⟨odd, begun, later, rfl, remaining, ends, last⟩ := exists_block_of_decodes decodes
  have final : (reader.rest.take blockSize).isEmpty = true → reader.rest = [] := by
    intro none
    rw [List.isEmpty_iff, List.take_eq_nil_iff] at none
    exact none.resolve_left (by decide)
  obtain ⟨settled, still⟩ := settleReturns_append reader.returnWaits
    (reader.rest.take blockSize).isEmpty begun later fun none => (last (final none)).2
  refine ⟨{
    rest := reader.rest.drop blockSize
    held := odd
    returnWaits := (settleReturns reader.returnWaits
      (reader.rest.take blockSize).isEmpty begun).2
    ready := (settleReturns reader.returnWaits (reader.rest.take blockSize).isEmpty begun).1 },
    _, ?decoded, rfl, ⟨later, remaining, settled.symm⟩, ?last⟩
  case decoded =>
    unfold nextBlock Utf8.decode
    rcases ends with ⟨complete, rfl⟩ | ⟨some, fault, unfinished⟩
    · dsimp only
      rw [complete]
    · have onward : (reader.rest.take blockSize).isEmpty = false :=
        Bool.eq_false_iff.mpr fun none => some (final none)
      dsimp only
      rw [unfinished, onward]
      rfl
  case last =>
    intro none
    obtain ⟨rfl, rfl⟩ := last none
    have still := still (by rw [none]; rfl)
    rw [still] at settled
    refine ⟨(List.append_nil _).symm.trans settled, fun ready => ⟨[], ?_, ?_⟩⟩
    · rw [none]
      exact .nil
    · dsimp only
      rw [still]
      exact (List.append_nil ready).symm

/-! ## Lines -/

theorem not_isFinished {line : List Char} (solid : ∀ c ∈ line, c ≠ '\n') :
    ¬isFinished line = true := by
  intro ended
  exact solid '\n' (List.mem_of_getLast? (of_decide_eq_true ended)) rfl

section

variable {reader next : Reader} {begun : List Char}

/-- The line ends in what is decoded already. -/
theorem restOfLine_of_feed {line ready : List Char} (same : reader.ready = line ++ '\n' :: ready)
    (solid : ∀ c ∈ line, c ≠ '\n') :
    reader.restOfLine begun = .ok (begun ++ line ++ ['\n'], { reader with ready }) := by
  have ended : isFinished (begun ++ (line ++ ['\n'])) = true := by simp [isFinished]
  unfold restOfLine
  rw [same, cutLine_feed solid]
  dsimp only
  rw [if_pos ended, List.append_assoc]

/-- The line goes on in the next block. -/
theorem restOfLine_of_block (unended : ∀ c ∈ begun ++ reader.ready, c ≠ '\n')
    (more : reader.rest ≠ []) (block : reader.nextBlock = .ok next) :
    reader.restOfLine begun = next.restOfLine (begun ++ reader.ready) := by
  rw [restOfLine, cutLine_of_solid (List.forall_mem_append.mp unended).2]
  dsimp only
  rw [if_neg (not_isFinished unended)]
  split
  · rename_i none
    exact absurd none more
  · split
    · rename_i failed
      cases block.symm.trans failed
    · rename_i decoded
      cases block.symm.trans decoded
      rfl

/-- The line is the last one. -/
theorem restOfLine_of_last (unended : ∀ c ∈ begun ++ reader.ready, c ≠ '\n')
    (last : reader.rest = []) (block : reader.nextBlock = .ok next) :
    reader.restOfLine begun = .ok (begun ++ reader.ready ++ (cutLine next.ready).1,
      { next with ready := (cutLine next.ready).2 }) := by
  unfold restOfLine
  rw [cutLine_of_solid (List.forall_mem_append.mp unended).2]
  dsimp only
  rw [if_neg (not_isFinished unended)]
  split
  · rw [block]
    rfl
  · rename_i more
    cases last.symm.trans more

/-- The line is lost with the block that it goes on in. -/
theorem restOfLine_of_error {fault : Utf8.Fault × Reader}
    (unended : ∀ c ∈ begun ++ reader.ready, c ≠ '\n') (failed : reader.nextBlock = .error fault) :
    reader.restOfLine begun = .error fault := by
  unfold restOfLine
  rw [cutLine_of_solid (List.forall_mem_append.mp unended).2]
  dsimp only
  rw [if_neg (not_isFinished unended)]
  split
  · rw [failed]
    rfl
  · split
    · rename_i other
      cases failed.symm.trans other
      rfl
    · rename_i decoded
      cases failed.symm.trans decoded

end

/-- A reader gives out the first line of what it holds. -/
theorem restOfLine_of_holds {reader : Reader} {text begun : List Char} (holds : reader.Holds text)
    (unended : ∀ c ∈ begun, c ≠ '\n') :
    ∃ next, reader.restOfLine begun = .ok (begun ++ (cutLine text).1, next) ∧
      next.Holds (cutLine text).2 := by
  induction left : reader.rest.length using Nat.strongRecOn generalizing reader text begun with
  | ind size ih =>
    rcases feed_or_solid reader.ready with ⟨line, ready, same, solid⟩ | solid
    · obtain ⟨decoded, decodes, rfl⟩ := holds
      rw [restOfLine_of_feed same solid, same, List.append_assoc line, List.cons_append,
        cutLine_feed solid, List.append_assoc]
      exact ⟨_, rfl, decoded, decodes, rfl⟩
    · obtain ⟨next, later, block, rfl, onward, last⟩ := nextBlock_of_holds holds
      have unended : ∀ c ∈ begun ++ reader.ready, c ≠ '\n' :=
        List.forall_mem_append.mpr ⟨unended, solid⟩
      rw [cutLine_append solid, ← List.append_assoc]
      by_cases none : reader.rest = []
      · obtain ⟨rfl, whole⟩ := last none
        rw [restOfLine_of_last unended none block]
        exact ⟨_, rfl, whole _⟩
      · have some := List.length_pos_iff.mpr none
        have shorter : next.rest.length < size := by
          rw [rest_of_nextBlock block, List.length_drop, ← left]
          unfold blockSize
          omega
        rw [restOfLine_of_block unended none block]
        exact ih _ shorter onward unended rfl

/-- There are no more lines left than are looked at. -/
theorem length_lines_lt_of_holds {reader : Reader} {text : List Char} (holds : reader.Holds text) :
    (lines text).length < Source.linesLeft reader := by
  obtain ⟨decoded, decodes, rfl⟩ := holds
  have few := length_lines_le
    (reader.ready ++ unifyNewlines (waiting reader.returnWaits ++ decoded))
  have unified := length_unifyNewlines_le (waiting reader.returnWaits ++ decoded)
  have bytes := decodes.length_le
  have one : (waiting reader.returnWaits).length ≤ 1 := by
    unfold waiting
    split
    · exact le_refl 1
    · exact Nat.zero_le 1
  rw [List.length_append] at few unified bytes
  unfold Source.linesLeft
  omega

end Reader

/-! ## Sources -/

namespace Source

/-- The next line with content in a file is that of its text. -/
theorem firstContentOf_of_holds {limit read : Nat} {reader : Reader} {text : List Char}
    (holds : reader.Holds text) (enough : (lines text).length ≤ limit) :
    ∃ content next rest count,
      firstContentOf limit read reader = (.ok content, next, read + count) ∧
      next.Holds rest ∧ Found (lines text) count content (lines rest) := by
  induction limit generalizing read reader text with
  | zero =>
    refine ⟨none, reader, text, 0, rfl, holds, ?_⟩
    rw [List.length_eq_zero_iff.mp (Nat.le_zero.mp enough)]
    exact .ended
  | succ limit ih =>
    obtain ⟨next, line, onward⟩ := Reader.restOfLine_of_holds holds (List.forall_mem_nil _)
    unfold firstContentOf Reader.nextLine
    rw [line, List.nil_append]
    rcases eq_or_ne text [] with rfl | some
    · exact ⟨none, next, [], 0, rfl, onward, .ended⟩
    · obtain ⟨physical, same, stripped, nonempty, -⟩ := lines_of_cutLine some
      obtain ⟨c, cs, front⟩ := List.exists_cons_of_ne_nil nonempty
      rw [front] at stripped ⊢
      rw [same] at enough ⊢
      dsimp only
      rw [stripped]
      by_cases idle : stripLine physical = []
      · obtain ⟨content, last, rest, count, given, held, found⟩ :=
          @ih (read + 1) next _ onward (Nat.le_of_succ_le_succ enough)
        rw [if_pos (List.isEmpty_iff.mpr idle), given, Nat.add_right_comm]
        exact ⟨content, last, rest, count + 1, rfl, held, .idle idle found⟩
      · rw [if_neg (fun none => idle (List.isEmpty_iff.mp none))]
        exact ⟨_, next, (cutLine text).2, 1, rfl, onward, .here idle⟩

/-- The physical lines that a stream has not given out. -/
def Left (source : Source) (physical : List (List Char)) : Prop :=
  match source.stream with
  | .text text => text = physical
  | .file _ none => False
  | .file _ (some reader) => ∃ text, reader.Holds text ∧ physical = lines text

/-- A source gives out the first line with content among those that are left, and counts the lines
up to it. -/
theorem next_of_left (tree : Tree) {source : Source} {physical : List (List Char)}
    (left : source.Left physical) :
    ∃ content later rest count, source.next tree = (.ok (content.map String.ofList), later) ∧
      later.Left rest ∧ later.lineNumber = source.lineNumber + count ∧
      Found physical count content rest := by
  obtain ⟨text | ⟨path, - | reader⟩, first⟩ := source
  · obtain rfl : text = physical := left
    rcases given : firstContent 0 text with ⟨content, rest, read⟩
    obtain ⟨count, rfl, found⟩ := found_of_firstContent given
    refine ⟨content, ⟨.text rest, first + count⟩, rest, count, ?_, rfl, rfl, found⟩
    unfold next opened
    dsimp only
    rw [given, Nat.zero_add]
  · exact left.elim
  · obtain ⟨text, holds, rfl⟩ := left
    have enough := (Reader.length_lines_lt_of_holds holds).le
    obtain ⟨content, last, rest, count, given, held, found⟩ :=
      @firstContentOf_of_holds _ 0 _ _ holds enough
    refine ⟨content, ⟨.file path (some last), first + count⟩, lines rest, count, ?_,
      ⟨rest, held, rfl⟩, rfl, found⟩
    unfold next opened
    dsimp only
    rw [given, Nat.zero_add]

/-- A source gives out all lines with content that are left, each under its position. -/
theorem collect_of_left (tree : Tree) {limit : Nat} {source : Source} {physical : List (List Char)}
    (left : source.Left physical) (enough : physical.length < limit) :
    ∃ last, source.collect tree limit = (numbered source.lineNumber physical, none, last) ∧
      last.lineNumber = source.lineNumber + physical.length := by
  induction limit generalizing source physical with
  | zero => omega
  | succ limit ih =>
    obtain ⟨content, later, rest, count, given, onward, counts, found⟩ := next_of_left tree left
    unfold collect
    rw [given, found.numbered_eq, ← counts]
    cases content with
    | none => exact ⟨later, rfl, counts.trans (congrArg _ found.idle_of_none.1)⟩
    | some content =>
      have read := found.count_pos
      have parts := found.length_eq
      obtain ⟨last, collected, all⟩ := ih onward (by omega)
      dsimp only [Option.map_some]
      rw [collected]
      refine ⟨last, rfl, ?_⟩
      rw [all, counts, ← parts, Nat.add_assoc]

theorem length_le_contentLeft {source : Source} {physical : List (List Char)}
    (left : source.Left physical) : physical.length ≤ source.contentLeft := by
  obtain ⟨text | ⟨path, - | reader⟩, first⟩ := source
  · exact (congrArg List.length left).ge
  · exact left.elim
  · obtain ⟨text, holds, rfl⟩ := left
    exact (Reader.length_lines_lt_of_holds holds).le

@[simp]
theorem lineNumber_closed (source : Source) : source.closed.lineNumber = source.lineNumber := by
  rcases source with ⟨lines | ⟨path, reader⟩, first⟩
  · rfl
  · rfl

theorem readAll_of_left {tree : Tree} {source opened : Source} {physical : List (List Char)}
    (opens : source.opened tree = .ok opened) (left : opened.Left physical) :
    ∃ last, source.readAll tree = (numbered opened.lineNumber physical, none, last) ∧
      last.lineNumber = opened.lineNumber + physical.length := by
  have enough := Nat.lt_succ_of_le (length_le_contentLeft left)
  obtain ⟨last, collected, all⟩ := collect_of_left tree left enough
  unfold readAll
  rw [opens]
  dsimp only
  rw [collected]
  exact ⟨last.closed, rfl, (lineNumber_closed last).trans all⟩

/-! ## Opening twice -/

theorem opened_of_opened {tree : Tree} {source opened : Source}
    (opens : source.opened tree = .ok opened) :
    opened.opened tree = .ok opened ∧ opened.name = source.name := by
  rcases source with ⟨lines | ⟨path, none | reader⟩, number⟩
  · cases opens
    exact ⟨rfl, rfl⟩
  · simp only [Source.opened] at opens
    split at opens
    · cases opens
      exact ⟨rfl, rfl⟩
    · cases opens
    · cases opens
  · cases opens
    exact ⟨rfl, rfl⟩

theorem next_of_opened {tree : Tree} {source opened : Source}
    (opens : source.opened tree = .ok opened) : source.next tree = opened.next tree := by
  unfold next
  rw [opens, (opened_of_opened opens).1]

theorem readAll_of_opened {tree : Tree} {source opened : Source}
    (opens : source.opened tree = .ok opened) : opened.readAll tree = source.readAll tree := by
  unfold readAll
  rw [opens, (opened_of_opened opens).1]

/-! ## Scripts -/

theorem opened_ofFile {tree : Tree} {path : String} {bytes : List UInt8}
    (given : tree.read path = .ok bytes) (first : Nat) :
    (⟨.file path none, first⟩ : Source).opened tree =
      .ok ⟨.file path (some { rest := bytes }), first⟩ := by
  unfold opened
  dsimp only
  rw [given]

/-- The fault of a script that cannot be opened. -/
def unopened (path : String) : OpenFault → SourceFault
  | .file fault => .cannotOpen path fault
  | .nul => .nul

theorem opened_ofFile_error {tree : Tree} {path : String} {fault : OpenFault}
    (failed : tree.read path = .error fault) :
    (ofFile path).opened tree = .error (unopened path fault) := by
  unfold opened ofFile
  dsimp only
  rw [failed]
  cases fault with
  | file fault => rfl
  | nul => rfl

/-- A file that was just opened has all lines of its text left. -/
theorem holds_of_decodeAll {bytes : List UInt8} {text : List Char}
    (decoded : Utf8.decodeAll bytes = .ok text) :
    Reader.Holds { rest := bytes } (unifyNewlines text) := by
  refine ⟨text, ?_, rfl⟩
  rw [← Utf8.decodeFrom_complete_iff 0]
  unfold Utf8.decodeAll at decoded
  split at decoded
  · rename_i complete
    cases decoded
    exact complete
  · cases decoded
  · cases decoded

/-- A source that nothing was read from, over a text in memory or the file of a text, and the
physical lines of the text. The line ends of a file are unified first. -/
inductive Over (tree : Tree) : Source → List (List Char) → Prop
  | text (text : String) : Over tree (.ofText text) (lines text.toList)
  | file {path : String} {bytes : List UInt8} {text : List Char} :
    tree.read path = .ok bytes → Utf8.decodeAll bytes = .ok text →
      Over tree (.ofFile path) (lines (unifyNewlines text))

/-- Opened, a script has all its lines left. -/
theorem Over.opens {tree : Tree} {source : Source} {physical : List (List Char)}
    (reads : source.Over tree physical) :
    ∃ opened, source.opened tree = .ok opened ∧ opened.Left physical ∧ opened.lineNumber = 0 := by
  cases reads with
  | text text => exact ⟨ofText text, rfl, rfl, rfl⟩
  | file given decoded =>
    exact ⟨_, opened_ofFile given 0, ⟨_, holds_of_decodeAll decoded, rfl⟩, rfl⟩

/-- A script gives out its lines with content under their physical positions, and ends. -/
theorem Over.readAll_eq {tree : Tree} {source : Source} {physical : List (List Char)}
    (reads : source.Over tree physical) :
    ∃ last, source.readAll tree = (numbered 0 physical, none, last) := by
  obtain ⟨opened, opens, left, first⟩ := reads.opens
  obtain ⟨last, given, -⟩ := readAll_of_left opens left
  rw [first] at given
  exact ⟨last, given⟩

end Source

end BusScript.Script
