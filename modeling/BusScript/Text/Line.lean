/-!
# Lines

Three ways to see lines in a text. An in-memory script ends a line at a line feed only. A file
read as text first turns each carriage return, with the line feed after it if there is one, into a
line feed. A memory image also ends a line at the other Unicode line boundaries.
-/

namespace BusScript.Text

/-- Each carriage return becomes a line feed, together with a line feed that follows it. -/
def unifyNewlines : List Char → List Char
  | [] => []
  | '\r' :: '\n' :: rest => '\n' :: unifyNewlines rest
  | '\r' :: rest => '\n' :: unifyNewlines rest
  | c :: rest => c :: unifyNewlines rest

/-- The lines of a text whose terminators are the characters of `ends`; a text that stops without a
terminator has an unfinished last line, and the empty text has none. -/
def linesBy (ends : Char → Bool) (text : List Char) : List (List Char) :=
  let pieces := text.splitOnP ends
  if pieces.getLast? = some [] then pieces.dropLast else pieces

/-- The lines of a text that only a line feed ends. -/
def lines (text : List Char) : List (List Char) :=
  linesBy (· == '\n') text

/-- The characters that end a line by themselves: line feed, vertical tab, form feed, the file,
group and record separators, next line, and the line and paragraph separators. -/
def isLineEnd (c : Char) : Bool :=
  let n := c.toNat
  (10 ≤ n && n ≤ 12) || (28 ≤ n && n ≤ 30) || n == 0x85 || n == 0x2028 || n == 0x2029

/-- The lines of a text at every Unicode line boundary, a carriage return with its line feed being
one boundary. -/
def unicodeLines (text : List Char) : List (List Char) :=
  linesBy isLineEnd (unifyNewlines text)

end BusScript.Text
