import BusScript.Files.Tree
import BusScript.Script.Reader
import BusScript.Text.Blank

/-!
# Script sources

Where a script's lines come from: a text in memory or a file. A source counts the physical lines it
reads and gives out those with content, without comments. A file is opened at the first read; after
it was closed, reading starts the file over while the count goes on. A text stays where it was.
-/

namespace BusScript.Script

/-- The characters trimmed from both ends of a line. -/
def isTrimmed (c : Char) : Bool :=
  c == ' ' || c == '\t' || c == '\r' || c == '\n'

/-- The content of a line: what stands before its first `#`, trimmed. -/
def stripLine (line : List Char) : List Char :=
  Text.trim isTrimmed (line.takeWhile (· != '#'))

/-! ## Faults -/

/-- Why a script cannot be read. -/
inductive SourceFault
  | cannotOpen (script : String) (fault : FileFault)
  | cannotRead (script : String) (fault : Text.Utf8.Fault)
  /-- The path of the script holds a NUL. -/
  | nul
  deriving DecidableEq, Repr

def SourceFault.message : SourceFault → String
  | .cannotOpen script fault => s!"cannot open script {script}: {fault.reason}"
  | .cannotRead script fault => s!"cannot read script {script}: {fault.message}"
  | .nul => OpenFault.nul.message ""

/-! ## Sources -/

/-- What a source reads from, as far as it has been read. -/
inductive Stream
  /-- The lines of a text that are still to come. -/
  | text (lines : List (List Char))
  /-- A file by its path, with its reader while it is open. -/
  | file (path : String) (reader : Option Reader)
  deriving DecidableEq, Repr

structure Source where
  stream : Stream
  /-- The number of the last physical line read, counted from 1. -/
  lineNumber : Nat := 0
  deriving DecidableEq, Repr

namespace Source

/-- A source over a text in memory. -/
def ofText (text : String) : Source :=
  ⟨.text (Text.lines text.toList), 0⟩

/-- A source over the file of a path. -/
def ofFile (path : String) : Source :=
  ⟨.file path none, 0⟩

/-- The name of the script in diagnostics. -/
def name (source : Source) : String :=
  match source.stream with
  | .text _ => "<stream>"
  | .file path _ => path

/-- The source with its file open; an open one is left as it is. -/
def opened (tree : Tree) (source : Source) : Except SourceFault Source :=
  match source.stream with
  | .file path none => match tree.read path with
    | .ok bytes => .ok { source with stream := .file path (some { rest := bytes }) }
    | .error (.file fault) => .error (.cannotOpen path fault)
    | .error .nul => .error .nul
  | _ => .ok source

/-- The source with its file closed. -/
def closed (source : Source) : Source :=
  match source.stream with
  | .file path _ => { source with stream := .file path none }
  | .text _ => source

/-! ## Lines -/

/-- The first line with content among lines, the lines behind it, and how many lines were read. -/
def firstContent (read : Nat) : List (List Char) → Option (List Char) × List (List Char) × Nat
  | [] => (none, [], read)
  | line :: rest =>
    let content := stripLine line
    if content.isEmpty then firstContent (read + 1) rest else (some content, rest, read + 1)

/-- The first line with content in a file, looking at no more than `limit` lines. -/
def firstContentOf (limit read : Nat) (reader : Reader) :
    Except Text.Utf8.Fault (Option (List Char)) × Reader × Nat :=
  match limit with
  | 0 => (.ok none, reader, read)
  | limit + 1 => match reader.nextLine with
    | .error (fault, reader) => (.error fault, reader, read)
    | .ok ([], reader) => (.ok none, reader, read)
    | .ok (line, reader) =>
      let content := stripLine line
      if content.isEmpty then firstContentOf limit (read + 1) reader
      else (.ok (some content), reader, read + 1)

/-- A bound on the lines that a reader has left: each of them takes a byte or a character. -/
def linesLeft (reader : Reader) : Nat :=
  reader.rest.length + reader.held.length + reader.ready.length + 2

/-- The next line with content, `none` at the end. Lines without content are counted all the
same. -/
def next (tree : Tree) (source : Source) : Except SourceFault (Option String) × Source :=
  match source.opened tree with
  | .error fault => (.error fault, source)
  | .ok source => match source.stream with
    | .text lines =>
      let (content, rest, read) := firstContent 0 lines
      (.ok (content.map String.ofList), ⟨.text rest, source.lineNumber + read⟩)
    | .file _ none => (.ok none, source)
    | .file path (some reader) =>
      let (content, reader, read) := firstContentOf (linesLeft reader) 0 reader
      let source := ⟨.file path (some reader), source.lineNumber + read⟩
      match content with
      | .ok content => (.ok (content.map String.ofList), source)
      | .error fault => (.error (.cannotRead source.name fault), source)

/-- A bound on the lines that a source has left. -/
def contentLeft (source : Source) : Nat :=
  match source.stream with
  | .text lines => lines.length
  | .file _ (some reader) => linesLeft reader
  | .file _ none => 0

/-- All lines with content, under their numbers, and the fault that ended the reading, if one did;
no more than `limit` lines. -/
def collect (tree : Tree) (limit : Nat) (source : Source) :
    List (Nat × String) × Option SourceFault × Source :=
  match limit with
  | 0 => ([], none, source)
  | limit + 1 => match source.next tree with
    | (.error fault, source) => ([], some fault, source)
    | (.ok none, source) => ([], none, source)
    | (.ok (some line), source) =>
      let (lines, fault, last) := collect tree limit source
      ((source.lineNumber, line) :: lines, fault, last)

/-- All lines with content that are left, under their numbers, the fault that ended the reading, if
one did, and the source, which is closed then. -/
def readAll (tree : Tree) (source : Source) :
    List (Nat × String) × Option SourceFault × Source :=
  match source.opened tree with
  | .error fault => ([], some fault, source.closed)
  | .ok source =>
    let (lines, fault, source) := source.collect tree (source.contentLeft + 1)
    (lines, fault, source.closed)

end Source

end BusScript.Script
