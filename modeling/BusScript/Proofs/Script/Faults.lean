import Mathlib.Data.Nat.Find
import BusScript.Proofs.Script.Reading

/-!
# Reading files that are no text

A fault in a file is noticed when the block with it is decoded, or at the end of the file if a
character is unfinished there. The blocks before it are read as if there were none
(`Reader.ahead`), so the lines that end in these are given out (`Source.readAll_of_broken`); what
they begin and do not end is lost.
-/

namespace BusScript.Script

open Text

namespace Reader

variable {reader next : Reader} {blocks : Nat} {text : List Char}

/-! ## Faults -/

/-- The fault is noticed behind so many blocks: they decode, and the block behind them does not, or
there is none and the last character is unfinished. -/
structure Breaks (reader : Reader) (blocks : Nat) : Prop where
  filled : blocks * blockSize < reader.rest.length + blockSize
  sound : (Utf8.decode (reader.held ++ reader.rest.take (blocks * blockSize))).2.held? ≠ none
  faulty :
    (Utf8.decode (reader.held ++ reader.rest.take ((blocks + 1) * blockSize))).2.held? = none ∨
      reader.rest.length ≤ blocks * blockSize ∧
        (Utf8.decode (reader.held ++ reader.rest)).2.held? ≠ some []

/-- The characters that a reader gives out up to the end of so many blocks. A carriage return that
ends them waits. -/
def ahead (reader : Reader) (blocks : Nat) : List Char :=
  reader.ready ++ (settleReturns reader.returnWaits false
    (Utf8.decode (reader.held ++ reader.rest.take (blocks * blockSize))).1).1

/-- A file that is no text breaks behind some of its blocks. -/
theorem exists_breaks {bytes : List UInt8}
    (broken : (Utf8.decode bytes).2.held? ≠ some []) :
    ∃ blocks, Breaks { rest := bytes } blocks := by
  classical
  let ends (blocks : Nat) : Prop :=
    (Utf8.decode (bytes.take ((blocks + 1) * blockSize))).2.held? = none ∨
      bytes.length ≤ blocks * blockSize
  have some : ∃ blocks, ends blocks := by
    refine ⟨bytes.length, .inr ?_⟩
    unfold blockSize
    omega
  -- The first block that does not decode, or the first that there is none of.
  obtain ⟨blocks, here, before⟩ := Nat.findX some
  refine ⟨blocks, ?filled, ?sound, ?faulty⟩
  case filled =>
    cases blocks with
    | zero =>
      rw [Nat.zero_mul]
      exact Nat.lt_of_lt_of_le (by decide) (Nat.le_add_left blockSize _)
    | succ blocks =>
      rw [Nat.succ_mul]
      apply Nat.add_lt_add_right
      exact Nat.lt_of_not_le fun few => before blocks (Nat.lt_succ_self blocks) (.inr few)
  case sound =>
    cases blocks with
    | zero =>
      rw [Nat.zero_mul, List.take_zero]
      exact Option.some_ne_none _
    | succ blocks => exact fun none => before blocks (Nat.lt_succ_self blocks) (.inl none)
  case faulty =>
    rcases here with none | few
    · exact .inl none
    · exact .inr ⟨few, broken⟩

/-- A fault is noticed at one place. -/
theorem Breaks.unique {other : Nat} (breaks : reader.Breaks blocks)
    (also : reader.Breaks other) : blocks = other := by
  have early {first later : Nat} (here : reader.Breaks first) (there : reader.Breaks later) :
      ¬first < later := by
    intro less
    have within : (first + 1) * blockSize ≤ later * blockSize :=
      Nat.mul_le_mul_right blockSize less
    rcases here.faulty with broken | ⟨few, -⟩
    · apply there.sound
      have begins : reader.rest.take _ <+: reader.rest.take _ := List.take_prefix_take_left within
      obtain ⟨more, parts⟩ := begins
      rw [← parts, ← List.append_assoc]
      exact Utf8.decode_append_broken broken more
    · have filled := there.filled
      rw [Nat.succ_mul] at within
      omega
  have one := early breaks also
  have two := early also breaks
  omega

/-! ## Line ends -/

/-- Whether a carriage return waits depends on the last character. -/
theorem returnWaits_of_settleReturns (returns : Bool) (text : List Char) :
    (settleReturns returns false text).2 =
      decide ((waiting returns ++ text).getLast? = some '\r') := by
  unfold settleReturns
  rw [waiting_append]
  split
  · rename_i none
    rw [Bool.and_eq_true, List.isEmpty_iff] at none
    rw [none.1, List.append_nil]
    cases returns <;> rfl
  · dsimp only
    split
    · rename_i waits
      rw [Bool.and_eq_true] at waits
      exact waits.2.symm
    · rename_i settles
      rw [Bool.not_false, Bool.true_and, Bool.not_eq_true] at settles
      exact settles.symm

/-- Characters settle in parts as they do at once. -/
theorem settleReturns_parts (returns : Bool) (begun later : List Char) :
    (settleReturns returns false (begun ++ later)).1 =
      (settleReturns returns false begun).1 ++
        (settleReturns (settleReturns returns false begun).2 false later).1 := by
  have never : false = true → ([] : List Char) = [] := fun _ => rfl
  have whole := (settleReturns_append returns false (begun ++ later) [] never).1
  have first := (settleReturns_append returns false begun later (by simp)).1
  have second :=
    (settleReturns_append (settleReturns returns false begun).2 false later [] never).1
  have same : (settleReturns returns false (begun ++ later)).2 =
      (settleReturns (settleReturns returns false begun).2 false later).2 := by
    rw [returnWaits_of_settleReturns, returnWaits_of_settleReturns,
      returnWaits_of_settleReturns]
    cases later with
    | nil =>
      rw [List.append_nil, List.append_nil]
      cases decide ((waiting returns ++ begun).getLast? = some '\r') <;> rfl
    | cons c later =>
      rw [← List.append_assoc, List.getLast?_append_of_ne_nil _ (List.cons_ne_nil c later),
        List.getLast?_append_of_ne_nil _ (List.cons_ne_nil c later)]
  -- All of it is the same text, and both ways leave the same return waiting behind it.
  simp only [List.append_nil] at whole second
  rw [← first, ← second, ← List.append_assoc, same] at whole
  exact List.append_cancel_right whole

theorem length_settleReturns_le (returns : Bool) (text : List Char) :
    (settleReturns returns false text).1.length ≤ text.length + 1 := by
  have whole := (settleReturns_append returns false text [] fun _ => rfl).1
  have unified := length_unifyNewlines_le (waiting returns ++ (text ++ []))
  have one : (waiting returns).length ≤ 1 := by cases returns <;> decide
  rw [← whole] at unified
  simp only [List.append_nil, List.length_append] at unified
  omega

/-! ## Blocks -/

/-- A block that decodes is followed by the blocks behind it. -/
theorem nextBlock_of_sound {held : List UInt8} (more : reader.rest ≠ [])
    (holds : (Utf8.decode (reader.held ++ reader.rest.take blockSize)).2.held? = some held) :
    reader.nextBlock = .ok {
      rest := reader.rest.drop blockSize
      held
      returnWaits := (settleReturns reader.returnWaits false
        (Utf8.decode (reader.held ++ reader.rest.take blockSize)).1).2
      ready := (settleReturns reader.returnWaits false
        (Utf8.decode (reader.held ++ reader.rest.take blockSize)).1).1 } := by
  have onward : (reader.rest.take blockSize).isEmpty = false := by
    rw [Bool.eq_false_iff, ne_eq, List.isEmpty_iff, List.take_eq_nil_iff]
    exact fun none => none.elim (by decide) more
  unfold nextBlock
  dsimp only
  rw [onward]
  rcases decoded : Utf8.decode (reader.held ++ reader.rest.take blockSize) with ⟨text, ending⟩
  rw [decoded] at holds
  cases ending with
  | complete => cases holds; rfl
  | unfinished bytes fault => cases holds; rfl
  | broken fault => cases holds

/-- A block with a fault is no block, and neither is the end of a file in a character. -/
theorem nextBlock_of_faulty
    (faulty : (Utf8.decode (reader.held ++ reader.rest.take blockSize)).2.held? = none ∨
      reader.rest = [] ∧ (Utf8.decode (reader.held ++ reader.rest)).2.held? ≠ some []) :
    ∃ fault, reader.nextBlock = .error fault := by
  unfold nextBlock
  dsimp only
  rcases faulty with broken | ⟨last, unfinished⟩
  · rcases decoded : Utf8.decode (reader.held ++ reader.rest.take blockSize) with ⟨text, ending⟩
    rw [decoded] at broken
    cases ending with
    | complete => cases broken
    | unfinished bytes fault => cases broken
    | broken fault => exact ⟨_, rfl⟩
  · rw [last] at unfinished ⊢
    rw [List.take_nil]
    rcases decoded : Utf8.decode (reader.held ++ []) with ⟨text, ending⟩
    rw [decoded] at unfinished
    cases ending with
    | complete => exact absurd rfl unfinished
    | unfinished bytes fault => exact ⟨_, rfl⟩
    | broken fault => exact ⟨_, rfl⟩

/-- A reader in front of a fault, so many blocks ahead. What it holds of a character gives out
nothing by itself. -/
structure Faces (reader : Reader) (blocks : Nat) : Prop where
  silent : (Utf8.decode reader.held).1 = []
  breaks : reader.Breaks blocks

theorem Faces.of_ready (faces : reader.Faces blocks) (ready : List Char) :
    Faces { reader with ready } blocks :=
  ⟨faces.silent, faces.breaks.filled, faces.breaks.sound, faces.breaks.faulty⟩

theorem Faces.ahead_zero (faces : reader.Faces 0) : reader.ahead 0 = reader.ready := by
  unfold ahead
  rw [Nat.zero_mul, List.take_zero, List.append_nil, faces.silent]
  exact List.append_nil _

theorem Faces.nextBlock_zero (faces : reader.Faces 0) :
    ∃ fault, reader.nextBlock = .error fault := by
  apply nextBlock_of_faulty
  rcases faces.breaks.faulty with broken | ⟨few, unfinished⟩
  · rw [Nat.zero_add, Nat.one_mul] at broken
    exact .inl broken
  · rw [Nat.zero_mul, Nat.le_zero, List.length_eq_zero_iff] at few
    exact .inr ⟨few, unfinished⟩

/-- The first block in front of the fault is read like any other. -/
theorem Faces.nextBlock_succ (faces : reader.Faces (blocks + 1)) :
    reader.rest ≠ [] ∧ ∃ next, reader.nextBlock = .ok next ∧ next.Faces blocks ∧
      reader.ahead (blocks + 1) = reader.ready ++ next.ahead blocks := by
  obtain ⟨-, filled, sound, faulty⟩ := faces
  have parts (count : Nat) : reader.rest.take ((count + 1) * blockSize) =
      reader.rest.take blockSize ++ (reader.rest.drop blockSize).take (count * blockSize) := by
    rw [Nat.succ_mul, Nat.add_comm, List.take_add]
  have more : reader.rest ≠ [] := by
    intro none
    rw [none, List.length_nil, Nat.succ_mul] at filled
    omega
  have decodes : (Utf8.decode (reader.held ++ reader.rest.take blockSize)).2.held? ≠ none := by
    intro none
    apply sound
    rw [parts, ← List.append_assoc]
    exact Utf8.decode_append_broken none _
  obtain ⟨held, holds⟩ := Option.ne_none_iff_exists'.mp decodes
  have behind (count : Nat) := Utf8.decode_append holds
    ((reader.rest.drop blockSize).take (count * blockSize))
  refine ⟨more, _, nextBlock_of_sound more holds,
    ⟨(Utf8.decode_held holds).1, ?filled, ?sound, ?faulty⟩, ?ahead⟩
  case filled =>
    rw [Nat.succ_mul] at filled
    have within : blocks * blockSize < reader.rest.length := by omega
    rw [List.length_drop]
    omega
  case sound =>
    rw [← (behind blocks).2, List.append_assoc, ← parts]
    exact sound
  case faulty =>
    rcases faulty with broken | ⟨few, unfinished⟩
    · left
      rw [← (behind (blocks + 1)).2, List.append_assoc, ← parts]
      exact broken
    · right
      obtain ⟨-, all⟩ := Utf8.decode_append holds (reader.rest.drop blockSize)
      rw [List.append_assoc, List.take_append_drop] at all
      rw [Nat.succ_mul] at few
      rw [List.length_drop]
      exact ⟨Nat.sub_le_of_le_add few, all ▸ unfinished⟩
  case ahead =>
    unfold ahead
    rw [parts, ← List.append_assoc, (behind blocks).1, settleReturns_parts]

/-! ## Lines -/

theorem ahead_of_ready {line ready : List Char} (same : reader.ready = line ++ '\n' :: ready) :
    reader.ahead blocks = line ++ '\n' :: ahead { reader with ready } blocks := by
  unfold ahead
  rw [same, List.append_assoc, List.cons_append]

/-- A reader gives out the first line that ends in front of the fault. If none ends there, it
fails. -/
theorem Faces.restOfLine (faces : reader.Faces blocks) {begun : List Char}
    (unended : ∀ c ∈ begun, c ≠ '\n') :
    (∃ line next left, reader.ahead blocks = line ++ '\n' :: next.ahead left ∧
      (∀ c ∈ line, c ≠ '\n') ∧ next.Faces left ∧
      reader.restOfLine begun = .ok (begun ++ line ++ ['\n'], next)) ∨
    (∀ c ∈ reader.ahead blocks, c ≠ '\n') ∧
      ∃ fault, reader.restOfLine begun = .error fault := by
  -- Each block in front of the fault ends the line or is added to what was begun.
  induction blocks generalizing reader begun with
  | zero =>
    rcases feed_or_solid reader.ready with ⟨line, ready, same, solid⟩ | solid
    · exact .inl ⟨line, _, 0, ahead_of_ready same, solid, faces.of_ready ready,
        restOfLine_of_feed same solid⟩
    · have unended := List.forall_mem_append.mpr ⟨unended, solid⟩
      obtain ⟨fault, failed⟩ := faces.nextBlock_zero
      rw [faces.ahead_zero]
      exact .inr ⟨solid, fault, restOfLine_of_error unended failed⟩
  | succ blocks ih =>
    rcases feed_or_solid reader.ready with ⟨line, ready, same, solid⟩ | solid
    · exact .inl ⟨line, _, blocks + 1, ahead_of_ready same, solid,
        faces.of_ready ready, restOfLine_of_feed same solid⟩
    · have unended := List.forall_mem_append.mpr ⟨unended, solid⟩
      obtain ⟨more, next, block, onward, parts⟩ := faces.nextBlock_succ
      rw [parts, restOfLine_of_block unended more block]
      rcases ih onward unended with ⟨line, last, left, same, clear, faces, given⟩ | ⟨clear, failed⟩
      · refine .inl ⟨reader.ready ++ line, last, left, ?_, ?_, faces, ?_⟩
        · rw [same, List.append_assoc]
        · exact List.forall_mem_append.mpr ⟨solid, clear⟩
        · rw [given, List.append_assoc begun]
      · exact .inr ⟨List.forall_mem_append.mpr ⟨solid, clear⟩, failed⟩

/-- There are no more lines in front of a fault than are looked at. -/
theorem length_endedLines_lt (reader : Reader) (blocks : Nat) :
    (endedLines (reader.ahead blocks)).length < Source.linesLeft reader := by
  have few := length_endedLines_le (reader.ahead blocks)
  have settled := length_settleReturns_le reader.returnWaits
    (Utf8.decode (reader.held ++ reader.rest.take (blocks * blockSize))).1
  have bytes := Utf8.length_decode_le (reader.held ++ reader.rest.take (blocks * blockSize))
  have taken := List.length_take_le' (blocks * blockSize) reader.rest
  have parts : (reader.ahead blocks).length = reader.ready.length + _ := List.length_append
  rw [List.length_append] at bytes
  unfold Source.linesLeft
  omega

end Reader

/-! ## Sources -/

namespace Source

variable {reader : Reader} {blocks : Nat}

/-- The next line with content in front of a fault. Behind the last one comes the fault. -/
theorem firstContentOf_of_faces {limit read : Nat} (faces : reader.Faces blocks)
    (enough : (endedLines (reader.ahead blocks)).length < limit) :
    (∃ content next left count,
      firstContentOf limit read reader = (.ok (some content), next, read + count) ∧
      next.Faces left ∧ Found (endedLines (reader.ahead blocks)) count (some content)
        (endedLines (next.ahead left))) ∨
    ∃ fault next count rest, firstContentOf limit read reader = (.error fault, next, read + count) ∧
      Found (endedLines (reader.ahead blocks)) count none rest := by
  induction limit generalizing read reader blocks with
  | zero => omega
  | succ limit ih =>
    have first := faces.restOfLine (List.forall_mem_nil _)
    unfold firstContentOf Reader.nextLine
    rcases first with ⟨line, next, left, same, solid, onward, given⟩ | ⟨solid, fault, failed⟩
    · rw [given, List.nil_append]
      rw [same, endedLines_feed solid] at enough ⊢
      obtain ⟨c, cs, front⟩ := List.exists_cons_of_ne_nil
        (List.append_ne_nil_of_right_ne_nil line (List.cons_ne_nil '\n' []))
      have stripped := stripLine_feed line
      rw [front] at stripped ⊢
      dsimp only
      rw [stripped]
      by_cases idle : stripLine line = []
      · rw [if_pos (List.isEmpty_iff.mpr idle)]
        rcases @ih next left (read + 1) onward (Nat.lt_of_succ_lt_succ enough) with
          ⟨content, last, behind, count, given, faces, found⟩ |
            ⟨fault, last, count, rest, given, found⟩
        · rw [given, Nat.add_right_comm]
          exact .inl ⟨content, last, behind, count + 1, rfl, faces, .idle idle found⟩
        · rw [given, Nat.add_right_comm]
          exact .inr ⟨fault, last, count + 1, rest, rfl, .idle idle found⟩
      · rw [if_neg (fun none => idle (List.isEmpty_iff.mp none))]
        exact .inl ⟨_, next, left, 1, rfl, onward, .here idle⟩
    · obtain ⟨fault, next⟩ := fault
      rw [failed, endedLines_of_solid solid]
      exact .inr ⟨fault, next, 0, [], rfl, .ended⟩

/-- A source gives out the next line with content in front of a fault, or it fails. -/
theorem next_of_faces (tree : Tree) (path : String) (first : Nat) (faces : reader.Faces blocks) :
    (∃ content next left count, (⟨.file path (some reader), first⟩ : Source).next tree =
        (.ok (some (String.ofList content)), ⟨.file path (some next), first + count⟩) ∧
      next.Faces left ∧ Found (endedLines (reader.ahead blocks)) count (some content)
        (endedLines (next.ahead left))) ∨
    ∃ fault later count rest, (⟨.file path (some reader), first⟩ : Source).next tree =
        (.error (.cannotRead path fault), later) ∧
      Found (endedLines (reader.ahead blocks)) count none rest := by
  have enough := Reader.length_endedLines_lt reader blocks
  unfold next opened
  dsimp only
  rcases @firstContentOf_of_faces reader blocks _ 0 faces enough with
    ⟨content, next, left, count, given, onward, found⟩ | ⟨fault, next, count, rest, given, found⟩
  · rw [given, Nat.zero_add]
    exact .inl ⟨content, next, left, count, rfl, onward, found⟩
  · rw [given]
    exact .inr ⟨fault, _, count, rest, rfl, found⟩

/-- A source gives out all lines with content that end in front of a fault, and then fails. -/
theorem collect_of_faces (tree : Tree) (path : String) {limit first : Nat}
    (faces : reader.Faces blocks)
    (enough : (endedLines (reader.ahead blocks)).length < limit) :
    ∃ fault last, (⟨.file path (some reader), first⟩ : Source).collect tree limit =
      (numbered first (endedLines (reader.ahead blocks)), some (.cannotRead path fault), last) := by
  induction limit generalizing first reader blocks with
  | zero => omega
  | succ limit ih =>
    unfold collect
    rcases next_of_faces tree path first faces with
      ⟨content, next, left, count, given, onward, found⟩ | ⟨fault, later, count, rest, given, found⟩
    · have read := found.count_pos
      have parts := found.length_eq
      obtain ⟨fault, last, collected⟩ := @ih next left (first + count) onward (by omega)
      rw [given, found.numbered_eq]
      dsimp only [Option.elim_some]
      rw [collected]
      exact ⟨fault, last, rfl⟩
    · rw [given, found.numbered_eq]
      exact ⟨fault, later, rfl⟩

/-- A file that is no text gives out the lines with content that end in the blocks before the one
with its fault, and then fails. -/
theorem readAll_of_broken {tree : Tree} {path : String} {bytes : List UInt8}
    (given : tree.read path = .ok bytes) (broken : ∀ text, Utf8.decodeAll bytes ≠ .ok text) :
    ∃ blocks fault last, Reader.Breaks { rest := bytes } blocks ∧
      (ofFile path).readAll tree =
        (numbered 0 (endedLines (Reader.ahead { rest := bytes } blocks)),
          some (.cannotRead path fault), last) := by
  have faulty : (Utf8.decode bytes).2.held? ≠ some [] := by
    intro nothing
    obtain ⟨text, decoded⟩ := Utf8.exists_decodeAll_of_held nothing
    exact broken text decoded
  obtain ⟨blocks, breaks⟩ := Reader.exists_breaks faulty
  have faces : Reader.Faces { rest := bytes } blocks := ⟨rfl, breaks⟩
  have enough := Nat.lt_succ_of_lt (Reader.length_endedLines_lt { rest := bytes } blocks)
  obtain ⟨fault, last, collected⟩ := @collect_of_faces _ _ tree path _ 0 faces enough
  refine ⟨blocks, fault, last.closed, breaks, ?_⟩
  unfold readAll ofFile
  rw [opened_ofFile given]
  unfold contentLeft
  dsimp only
  rw [collected]

end Source

end BusScript.Script
