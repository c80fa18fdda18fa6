import BusScript.Text.Quoted
import BusScript.Trace.Record

/-!
# Traces as JSON lines

One object per record, each on a line of its own. A comma and a colon have a space behind them, and
the text is ASCII: all other characters are escaped by their UTF-16 units.
-/

namespace BusScript.Trace.Json

/-- The UTF-16 units of a character. -/
def units (c : Char) : List Nat :=
  let n := c.toNat
  if n < 0x10000 then [n]
  else [0xD800 + (n - 0x10000) / 0x400, 0xDC00 + (n - 0x10000) % 0x400]

/-- A character inside a string. -/
def escape (c : Char) : List Char :=
  if c = '"' ∨ c = '\\' then ['\\', c]
  else if c = '\n' then ['\\', 'n']
  else if c = '\r' then ['\\', 'r']
  else if c = '\t' then ['\\', 't']
  else if c.toNat = 8 then ['\\', 'b']
  else if c.toNat = 12 then ['\\', 'f']
  else if ' ' ≤ c ∧ c ≤ '~' then [c]
  else (units c).flatMap fun unit => '\\' :: 'u' :: Text.hexField 4 unit

/-- A string in double quotes. -/
def string (text : String) : List Char :=
  '"' :: text.toList.flatMap escape ++ ['"']

/-- Members with a comma and a space between them. -/
def joined (members : List (List Char)) : List Char :=
  [',', ' '].intercalate members

/-- A value. -/
def value : TraceRecord.Field → List Char
  | .missing => "null".toList
  | .number value => (toString value).toList
  | .text value => string value
  | .texts values => '[' :: joined (values.map string) ++ [']']

/-- An object; its braces are written by their numbers. -/
def object (members : List (String × TraceRecord.Field)) : List Char :=
  '\x7b' :: joined (members.map fun (name, field) => string name ++ [':', ' '] ++ value field)
    ++ ['\x7d']

/-- The records, one object a line. -/
def write (records : List TraceRecord) : Written :=
  records.foldl (fun written record => written.add (object record.fields ++ ['\n'])) {}

end BusScript.Trace.Json
