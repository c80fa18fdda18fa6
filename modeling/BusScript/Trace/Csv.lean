import BusScript.Trace.Record

/-!
# Comma-separated traces

One row per record under a row of field names, each row ended by a carriage return and a line feed.
A field that holds a comma, a double quote, a carriage return or a line feed stands in double
quotes, and a double quote inside it is written twice.
-/

namespace BusScript.Trace.Csv

/-- The characters that a field cannot hold without quotes. -/
def isSpecial (c : Char) : Bool :=
  c == ',' || c == '"' || c == '\r' || c == '\n'

/-- A text with its double quotes written twice. -/
def doubleQuotes (text : List Char) : List Char :=
  text.flatMap fun c => if c = '"' then ['"', '"'] else [c]

/-- A field, in quotes where it needs them. -/
def field (text : List Char) : List Char :=
  if text.any isSpecial then '"' :: doubleQuotes text ++ ['"'] else text

/-- A row with its end. -/
def row (fields : List String) : List Char :=
  [','].intercalate (fields.map fun text => field text.toList) ++ ['\r', '\n']

/-- The text of a field; a missing value is empty and several texts are joined by spaces. -/
def cell : TraceRecord.Field → String
  | .missing => ""
  | .number value => toString value
  | .text value => value
  | .texts values => " ".intercalate values

/-- The names of the fields, in their order. -/
def header : List String :=
  ["line", "protocol", "operation", "address", "burst", "size", "length", "data", "expected",
    "status", "detail"]

/-- The row of a record. -/
def recordRow (record : TraceRecord) : List Char :=
  row (record.fields.map fun (_, value) => cell value)

/-- The records as rows under the header. -/
def write (records : List TraceRecord) : Written :=
  records.foldl (fun written record => written.add (recordRow record))
    { text := String.ofList (row header) }

end BusScript.Trace.Csv
