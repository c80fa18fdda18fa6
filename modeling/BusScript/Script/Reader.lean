import BusScript.Text.Line
import BusScript.Text.Utf8

/-!
# Reading lines from a file

A file is read in blocks of 8192 bytes. Each block is decoded together with the bytes of a character
that the block before left unfinished, and its line ends become line feeds. A carriage return at the
end of a block waits for the next block, which may start with its line feed.

Bytes that are no text are a fault of the whole block: its characters and the line begun before it
are lost, and reading can go on with the next block.
-/

namespace BusScript.Script

/-- The bytes of a block. -/
def blockSize : Nat := 8192

/-- A file that is being read. -/
structure Reader where
  /-- The bytes of the blocks to come. -/
  rest : List UInt8
  /-- The bytes of an unfinished character. -/
  held : List UInt8 := []
  /-- A carriage return waits for what follows it. -/
  returnWaits : Bool := false
  /-- Decoded characters that no line has taken yet. -/
  ready : List Char := []
  deriving DecidableEq, Repr

/-- A text cut behind its first line feed, or at its end if it has none. -/
def cutLine (text : List Char) : List Char × List Char :=
  match text.span (· != '\n') with
  | (line, '\n' :: rest) => (line ++ ['\n'], rest)
  | (line, rest) => (line, rest)

/-- A line is finished if a line feed ends it. -/
def isFinished (line : List Char) : Bool :=
  line.getLast? = some '\n'

namespace Reader

/-- Characters with the carriage return that waited for them, in front of its line feed. At the end
of the file it waits no longer; a carriage return at the end of the characters waits in turn. -/
def settleReturns (waiting final : Bool) (text : List Char) : List Char × Bool :=
  if text.isEmpty && !final then (text, waiting)
  else
    let text := if waiting then '\r' :: text else text
    if !final && text.getLast? = some '\r' then (Text.unifyNewlines text.dropLast, true)
    else (Text.unifyNewlines text, false)

/-- The reader with the next block decoded; with the fault of the block comes the reader that has
left it behind. After the last block comes an empty one, which nothing may be unfinished at. -/
def nextBlock (reader : Reader) : Except (Text.Utf8.Fault × Reader) Reader :=
  let block := reader.rest.take blockSize
  let rest := reader.rest.drop blockSize
  let final := block.isEmpty
  let broken (fault : Text.Utf8.Fault) : Except (Text.Utf8.Fault × Reader) Reader :=
    .error (fault, { reader with rest, ready := [] })
  let decoded (text : List Char) (held : List UInt8) : Except (Text.Utf8.Fault × Reader) Reader :=
    let (ready, returnWaits) := settleReturns reader.returnWaits final text
    .ok { rest, held, returnWaits, ready }
  match Text.Utf8.decode (reader.held ++ block) with
  | (text, .complete) => decoded text []
  | (text, .unfinished bytes fault) => if final then broken fault else decoded text bytes
  | (_, .broken fault) => broken fault

/-- A block takes its bytes from the blocks to come. -/
theorem rest_of_nextBlock {reader next : Reader} (decoded : reader.nextBlock = .ok next) :
    next.rest = reader.rest.drop blockSize := by
  unfold nextBlock at decoded
  dsimp only at decoded
  split at decoded
  · cases decoded; rfl
  · split at decoded
    · cases decoded
    · cases decoded; rfl
  · cases decoded

/-- The rest of a line whose beginning is known, with its line feed if it has one; nothing at all
is the end of the file. -/
def restOfLine (begun : List Char) (reader : Reader) :
    Except (Text.Utf8.Fault × Reader) (List Char × Reader) :=
  let (line, ready) := cutLine reader.ready
  let line := begun ++ line
  if isFinished line then .ok (line, { reader with ready })
  else match _more : reader.rest with
    | [] => do
      let reader ← reader.nextBlock
      let (ending, ready) := cutLine reader.ready
      return (line ++ ending, { reader with ready })
    | _ :: _ => match _decoded : reader.nextBlock with
      | .error fault => .error fault
      | .ok next => next.restOfLine line
termination_by reader.rest.length
decreasing_by
  rw [rest_of_nextBlock _decoded, List.length_drop, _more, List.length_cons]
  simp only [blockSize]
  omega

/-- The next line with its line feed if it has one; nothing at all is the end of the file. -/
def nextLine (reader : Reader) : Except (Text.Utf8.Fault × Reader) (List Char × Reader) :=
  reader.restOfLine []

end Reader

end BusScript.Script
