import BusScript.Text.Blank
import BusScript.Text.Line
import BusScript.Number.Integer
import BusScript.Memory.Store

/-!
# Memory images

The text form of a memory's contents: hexadecimal words in order of their places, and `@` followed
by a hexadecimal place to go on from. Blanks separate the items, `//` starts a comment that reaches
to the end of the line, and underscores inside a word are left out.

A number is read as the integer literals of base sixteen are, so a sign and a `0x` are let through,
and negative places and words come about.
-/

namespace BusScript

open BusScript.Text (words unicodeLines)

namespace Image

/-- What a text says: go on from a place, or put a word at the next place. -/
inductive Item
  | place (index : Int)
  | word (value : Int)
  deriving DecidableEq, Repr

/-- The first item of a text that is none. -/
structure Fault where
  line : Nat
  item : String
  deriving DecidableEq, Repr

def Fault.message (fault : Fault) : String :=
  s!"line {fault.line}: bad hex item '{fault.item}'"

/-- A line without its comment. -/
def dropComment : List Char → List Char
  | '/' :: '/' :: _ => []
  | c :: rest => c :: dropComment rest
  | [] => []

/-- The item a word of the text spells. -/
def Item.ofText? (text : List Char) : Option Item :=
  match text with
  | '@' :: index => (Number.readInteger .sixteen (String.ofList index)).toOption.map .place
  | _ => (Number.readInteger .sixteen (String.ofList (text.filter (· != '_')))).toOption.map .word

/-- The items that the words of a line spell. -/
def lineItems (number : Nat) (line : List Char) : Except Fault (List Item) :=
  (words (dropComment line)).mapM fun text => match Item.ofText? text with
    | some item => .ok item
    | none => .error ⟨number, String.ofList text⟩

/-- The items of lines, the first line having a number. -/
def linesItems (number : Nat) : List (List Char) → Except Fault (List Item)
  | [] => .ok []
  | line :: rest => do
    let items ← lineItems number line
    return items ++ (← linesItems (number + 1) rest)

/-- The items of a text, in order. -/
def items (text : List Char) : Except Fault (List Item) :=
  linesItems 1 (unicodeLines text)

/-- Words under their places, with one more word. A place that has a word gets the new one and
keeps its rank. -/
def put (index value : Int) : List (Int × Int) → List (Int × Int)
  | [] => [(index, value)]
  | (other, old) :: rest =>
    if other = index then (index, value) :: rest else (other, old) :: put index value rest

/-- The words that items lay down from a place on, over words that lie already. -/
def lay (next : Int) (placed : List (Int × Int)) : List Item → List (Int × Int)
  | [] => placed
  | .place index :: rest => lay index placed rest
  | .word value :: rest => lay (next + 1) (put next value placed) rest

end Image

/-- The contents of a memory: its words under their places, in the order in which the places were
first used. -/
structure Image where
  words : List (Int × Int)
  deriving DecidableEq, Repr

namespace Image

/-- The image that a text describes. -/
def ofText (text : List Char) : Except Fault Image :=
  (items text).map fun items => ⟨lay 0 [] items⟩

/-- The store with each word of an image written at its place, a place having `wordBytes` bytes. -/
def load (image : Image) (wordBytes : Nat) (store : Store) : Store :=
  image.words.foldl (fun store (index, value) => store.write (index * wordBytes) value wordBytes)
    store

end Image

end BusScript
