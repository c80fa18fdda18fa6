import BusScript.Files.Tree
import BusScript.Text.Capital
import BusScript.Text.Utf8
import BusScript.Trace.Csv
import BusScript.Trace.Json

/-!
# Trace export

Writing the records of a run to a file, comma-separated or as JSON lines.
-/

namespace BusScript.Trace

/-- The form of an exported trace. -/
inductive Format
  | csv
  | jsonl
  deriving DecidableEq, Repr

def Format.name : Format → String
  | .csv => "csv"
  | .jsonl => "jsonl"

/-- The format of a name. -/
def Format.ofName? (name : String) : Option Format :=
  [Format.csv, .jsonl].find? (·.name == name)

/-- The format that the suffix of a path asks for, in letters of either case. -/
def Format.ofPath (path : Path) : Format :=
  if path.suffix.toList.map Text.small = ".csv".toList then .csv else .jsonl

/-- The records in a format. -/
def Format.write : Format → List TraceRecord → Written
  | .csv => Csv.write
  | .jsonl => Json.write

/-- Why records were not exported. -/
inductive ExportFault
  | unknownFormat (name : String)
  | cannotOpen (path : String) (fault : OpenFault)
  /-- The values of a record cannot be shown. -/
  | width (fault : Number.WidthFault)
  deriving DecidableEq, Repr

def ExportFault.message : ExportFault → String
  | .unknownFormat name => s!"Unknown format: {name}"
  | .cannotOpen path fault => fault.message path
  | .width fault => fault.message

/-- Records that were exported: how many, and the files with them. -/
structure Exported where
  count : Nat
  tree : Tree

/-- Write records to a path in a format. The path is opened before any record is shown. -/
def Format.exportTo (format : Format) (tree : Tree) (path : Path) (records : List TraceRecord) :
    Except ExportFault Exported := do
  let written := format.write records
  let tree ← (tree.write path.toString (Text.Utf8.encode written.text.toList)).mapError
    (.cannotOpen path.toString)
  (records.forM TraceRecord.checkWidth).mapError .width
  return { count := written.count, tree }

/-- Write records to a path. The format `auto` goes by the suffix. -/
def exportTo (tree : Tree) (path : Path) (format : String) (records : List TraceRecord) :
    Except ExportFault Exported := do
  let format ←
    if format = "auto" then pure (Format.ofPath path)
    else match Format.ofName? format with
      | some format => pure format
      | none => throw (.unknownFormat format)
  format.exportTo tree path records

end BusScript.Trace
