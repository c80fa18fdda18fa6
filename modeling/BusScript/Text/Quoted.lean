import BusScript.Text.Printable

/-!
# Quoted texts

A text inside quotes, as diagnostics show a value that could not be read. Apostrophes enclose it,
or double quotes where it holds an apostrophe and no double quote. The backslash, the enclosing
quote, tab, line feed and carriage return are escaped by a backslash, and an unprintable character
is written by its number in as few of two, four or eight small hexadecimal digits as hold it.
-/

namespace BusScript.Text

/-- A hexadecimal digit below sixteen, small letters for ten and up. -/
def smallHexDigit (d : Nat) : Char :=
  if d < 10 then Char.ofNat (48 + d) else Char.ofNat (87 + d)

/-- The last `count` hexadecimal digits of a number. -/
def hexField : Nat → Nat → List Char
  | 0, _ => []
  | count + 1, n => hexField count (n / 16) ++ [smallHexDigit (n % 16)]

/-- A character inside quotes. -/
def escape (quote c : Char) : List Char :=
  if c = quote ∨ c = '\\' then ['\\', c]
  else if c = '\n' then ['\\', 'n']
  else if c = '\r' then ['\\', 'r']
  else if c = '\t' then ['\\', 't']
  else if isPrintable c then [c]
  else if c.toNat < 0x100 then '\\' :: 'x' :: hexField 2 c.toNat
  else if c.toNat < 0x10000 then '\\' :: 'u' :: hexField 4 c.toNat
  else '\\' :: 'U' :: hexField 8 c.toNat

/-- A text in quotes. -/
def quoted (text : String) : String :=
  let cs := text.toList
  let quote := if cs.contains '\'' && !cs.contains '"' then '"' else '\''
  String.ofList (quote :: cs.flatMap (escape quote) ++ [quote])

/-- The first `limit` characters of a text in quotes; a long one loses its closing quote. -/
def quotedUpTo (limit : Nat) (text : String) : String :=
  String.ofList ((quoted text).toList.take limit)

end BusScript.Text
