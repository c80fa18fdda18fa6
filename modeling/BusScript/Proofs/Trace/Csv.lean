import BusScript.Proofs.Trace.Export

/-!
# Comma-separated traces read back

A reader of comma-separated text that goes through it character by character. A field stands bare or
in double quotes; in quotes it may hold commas and row ends, and a double quote inside is written
twice; a row ends with a carriage return and a line feed, which only the last row may lack. Anything
else is refused, such as a double quote in a bare field, text behind a closing quote, or half a row
end. Everything that the writer of traces puts down is read back by it (`read_rows`), so an exported
trace reads as its header and one row for each record (`exported_csv_reads_back`).
-/

namespace BusScript.Trace.Csv

/-! ## A reader -/

/-- Where a reader stands in a row. -/
inductive Place
  /-- Before the first character of a field. -/
  | front
  /-- In a field without quotes. -/
  | bare
  /-- Between the quotes of a field. -/
  | quoted
  /-- Behind a double quote between quotes, which closes the field or is the first of two. -/
  | closing
  /-- Behind the carriage return of a row end. -/
  | returned
  deriving DecidableEq, Repr

/-- A reader on its way: the rows behind it, the fields behind it in its row, and the characters of
its field so far. -/
structure Reader where
  place : Place := .front
  rows : List (List String) := []
  fields : List String := []
  text : List Char := []

namespace Reader

/-- A character of the field. -/
def push (reader : Reader) (place : Place) (c : Char) : Reader :=
  { reader with place, text := reader.text ++ [c] }

def endField (reader : Reader) (place : Place) : Reader :=
  { reader with place, fields := reader.fields ++ [String.ofList reader.text], text := [] }

def endRow (reader : Reader) : Reader :=
  { reader with place := .front, rows := reader.rows ++ [reader.fields], fields := [] }

/-- The character behind a field: a comma, or the carriage return of a row end. -/
def separate? (reader : Reader) (c : Char) : Option Reader :=
  if c = ',' then some (reader.endField .front)
  else if c = '\r' then some (reader.endField .returned)
  else none

/-- A character outside quotes. -/
def bare? (reader : Reader) (c : Char) : Option Reader :=
  if c = ',' ∨ c = '\r' then reader.separate? c
  else if c = '"' ∨ c = '\n' then none
  else some (reader.push .bare c)

/-- The reader behind one more character. -/
def next? (reader : Reader) (c : Char) : Option Reader :=
  match reader.place with
  | .front => if c = '"' then some { reader with place := .quoted } else reader.bare? c
  | .bare => reader.bare? c
  | .quoted =>
    if c = '"' then some { reader with place := .closing } else some (reader.push .quoted c)
  | .closing => if c = '"' then some (reader.push .quoted c) else reader.separate? c
  | .returned => if c = '\n' then some reader.endRow else none

/-- All rows at the end of the text. Nothing is left to do behind a row end; behind a comma the last
field of the last row is empty. -/
def finish? (reader : Reader) : Option (List (List String)) :=
  match reader.place with
  | .quoted | .returned => none
  | .front =>
    if reader.fields = [] then some reader.rows else some (reader.endField .front).endRow.rows
  | .bare | .closing => some (reader.endField .front).endRow.rows

end Reader

/-- The rows of a comma-separated text, each a list of its fields. -/
def read (text : List Char) : Option (List (List String)) :=
  text.foldlM Reader.next? {} >>= Reader.finish?

/-! ## Fields -/

/-- A field can end here. -/
def Place.IsEnd (place : Place) : Prop :=
  place ≠ .quoted ∧ place ≠ .returned

section

variable {place : Place} {rows : List (List String)} {fields : List String}

/-- Characters that need no quotes are taken as they are. -/
theorem foldlM_bare {text : List Char} (plain : text.any isSpecial = false) (done : List Char) :
    text.foldlM Reader.next? ⟨.bare, rows, fields, done⟩ =
      some ⟨.bare, rows, fields, done ++ text⟩ := by
  induction text generalizing done with
  | nil => simp
  | cons c rest ih =>
    simp only [List.any_cons, Bool.or_eq_false_iff] at plain
    have ordinary : (⟨.bare, rows, fields, done⟩ : Reader).next? c =
        some ⟨.bare, rows, fields, done ++ [c]⟩ := by
      have unlike := plain.1
      simp [isSpecial] at unlike
      simp [Reader.next?, Reader.bare?, Reader.push, unlike]
    rw [List.foldlM_cons, ordinary, Option.bind_eq_bind, Option.bind_some, ih plain.2]
    simp

/-- Between quotes every text is read, a double quote from two. -/
theorem foldlM_doubleQuotes (text done : List Char) :
    (doubleQuotes text).foldlM Reader.next? ⟨.quoted, rows, fields, done⟩ =
      some ⟨.quoted, rows, fields, done ++ text⟩ := by
  induction text generalizing done with
  | nil => simp [doubleQuotes]
  | cons c rest ih =>
    have one : (if c = '"' then ['"', '"'] else [c]).foldlM Reader.next?
        (⟨.quoted, rows, fields, done⟩ : Reader) =
          some ⟨.quoted, rows, fields, done ++ [c]⟩ := by
      split
      · rename_i quote
        simp [Reader.next?, Reader.push, quote]
      · rename_i other
        simp [Reader.next?, Reader.push, other]
    simp only [doubleQuotes, List.flatMap_cons] at ih ⊢
    rw [List.foldlM_append, one, Option.bind_eq_bind, Option.bind_some, ih]
    simp

variable (rows fields) in
/-- A written field is read back whole. -/
theorem foldlM_field (text : List Char) :
    ∃ place : Place, place.IsEnd ∧
      (field text).foldlM Reader.next? ⟨.front, rows, fields, []⟩ =
        some ⟨place, rows, fields, text⟩ := by
  unfold field
  split
  · refine ⟨.closing, by simp [Place.IsEnd], ?_⟩
    rw [List.foldlM_append, List.foldlM_cons]
    simp [Reader.next?, foldlM_doubleQuotes]
  · rename_i plain
    cases text with
    | nil => exact ⟨.front, by simp [Place.IsEnd], rfl⟩
    | cons c rest =>
      refine ⟨.bare, by simp [Place.IsEnd], ?_⟩
      -- The first character of a bare field is read like the others, only from before the field.
      have first : (⟨.front, rows, fields, []⟩ : Reader).next? c =
          (⟨.bare, rows, fields, []⟩ : Reader).next? c := by
        have unquoted : c ≠ '"' := by
          rintro rfl
          simp [isSpecial] at plain
        simp [Reader.next?, Reader.bare?, Reader.separate?, Reader.push, Reader.endField, unquoted]
      rw [List.foldlM_cons, first, ← List.foldlM_cons]
      exact foldlM_bare (by simpa using plain) []

theorem next?_comma {text : List Char} (ended : place.IsEnd) :
    (⟨place, rows, fields, text⟩ : Reader).next? ',' =
      some ⟨.front, rows, fields ++ [String.ofList text], []⟩ := by
  cases place <;>
    simp_all [Place.IsEnd, Reader.next?, Reader.bare?, Reader.separate?, Reader.endField]

theorem next?_return {text : List Char} (ended : place.IsEnd) :
    (⟨place, rows, fields, text⟩ : Reader).next? '\r' =
      some ⟨.returned, rows, fields ++ [String.ofList text], []⟩ := by
  cases place <;>
    simp_all [Place.IsEnd, Reader.next?, Reader.bare?, Reader.separate?, Reader.endField]

/-! ## Rows -/

theorem row_singleton (text : String) : row [text] = field text.toList ++ ['\r', '\n'] := by
  simp [row]

theorem row_cons_cons (text other : String) (rest : List String) :
    row (text :: other :: rest) = field text.toList ++ ',' :: row (other :: rest) := by
  simp [row, List.intercalate_cons_cons]

/-- A written row is read back field by field. -/
theorem foldlM_row (text : String) (rest before : List String) :
    (row (text :: rest)).foldlM Reader.next? ⟨.front, rows, before, []⟩ =
      some ⟨.front, rows ++ [before ++ text :: rest], [], []⟩ := by
  induction rest generalizing text before with
  | nil =>
    obtain ⟨place, ended, fieldRead⟩ := foldlM_field rows before text.toList
    rw [row_singleton, List.foldlM_append, fieldRead, Option.bind_eq_bind, Option.bind_some,
      List.foldlM_cons, next?_return ended]
    simp [Reader.next?, Reader.endRow]
  | cons other rest ih =>
    obtain ⟨place, ended, fieldRead⟩ := foldlM_field rows before text.toList
    rw [row_cons_cons, List.foldlM_append, fieldRead]
    simp [next?_comma ended, ih]

end

/-- Written rows are read back in their order; a row of no fields is not written. -/
theorem foldlM_rows {written : List (List String)} (filled : ∀ fields ∈ written, fields ≠ [])
    (rows : List (List String)) :
    (written.flatMap row).foldlM Reader.next? ⟨.front, rows, [], []⟩ =
      some ⟨.front, rows ++ written, [], []⟩ := by
  induction written generalizing rows with
  | nil => simp
  | cons fields rest ih =>
    obtain ⟨text, others, rfl⟩ := List.exists_cons_of_ne_nil (filled fields List.mem_cons_self)
    rw [List.flatMap_cons, List.foldlM_append, foldlM_row, Option.bind_eq_bind, Option.bind_some,
      ih fun fields mem => filled fields (List.mem_cons_of_mem _ mem)]
    simp

theorem read_rows {written : List (List String)} (filled : ∀ fields ∈ written, fields ≠ []) :
    read (written.flatMap row) = some written := by
  unfold read
  rw [foldlM_rows filled []]
  rfl

/-! ## Exported traces -/

/-- Texts one behind the other, with one space between any two. -/
def spaced : List String → String
  | [] => ""
  | [last] => last
  | first :: others => first ++ " " ++ spaced others

/-- The text that an entry of the dictionary form stands for: none for a missing value, the digits
of a number, and all of a list. -/
def entryText : TraceRecord.Field → String
  | .missing => ""
  | .number value => toString value
  | .text value => value
  | .texts values => spaced values

/-- What the dictionary form of a record has under each name of the header, as text. -/
def entries (record : TraceRecord) : List String :=
  header.map fun name => (record.fields.lookup name).elim "" entryText

theorem spaced_eq_intercalate (texts : List String) : spaced texts = " ".intercalate texts := by
  induction texts with
  | nil => exact String.intercalate_nil.symm
  | cons first others ih =>
    cases others with
    | nil => exact String.intercalate_singleton.symm
    | cons second others =>
      show first ++ " " ++ spaced (second :: others) = _
      rw [ih, String.intercalate_cons_cons]

/-- The writer puts down the text of each entry. -/
theorem cell_eq_entryText (field : TraceRecord.Field) : cell field = entryText field := by
  cases field with
  | texts values => exact (spaced_eq_intercalate values).symm
  | _ => rfl

/-- A row has one field for each name of the header, in its order. -/
theorem recordRow_eq (record : TraceRecord) : recordRow record = row (entries record) := by
  have named : recordRow record =
      row (header.map fun name => (record.fields.lookup name).elim "" cell) := rfl
  have spelled : cell = entryText := funext cell_eq_entryText
  rw [named, spelled]
  rfl

theorem write_eq (records : List TraceRecord) :
    (write records).count = records.length ∧
      (write records).text.toList = (header :: records.map entries).flatMap row := by
  obtain ⟨counted, spelled⟩ :=
    foldl_add recordRow records { text := String.ofList (row header) }
  refine ⟨counted.trans (Nat.zero_add _), spelled.trans ?_⟩
  have rows : recordRow = fun record => row (entries record) := funext recordRow_eq
  rw [rows, List.flatMap_cons, List.flatMap_map]
  exact congrArg (· ++ _) String.toList_ofList

/-- A trace exported with commas loses nothing of the dictionary form of its records. Where the path
opens for writing and every record has a dictionary form, the export ends well and reports the
number of records; the file is a text, and its rows are the header and one row for each record in
order, which holds the text of each entry of the record. -/
theorem exported_csv_reads_back {tree emptied : Tree} {path : Path} {records : List TraceRecord}
    (opened : tree.write path.toString [] = .ok emptied)
    (shown : ∀ record ∈ records, record.checkWidth = .ok ()) :
    ∃ exported bytes text, Format.csv.exportTo tree path records = .ok exported ∧
      exported.count = records.length ∧
      exported.tree.read path.toString = .ok bytes ∧
      Text.Utf8.decodeAll bytes = .ok text ∧
      read text = some (header :: records.map entries) := by
  obtain ⟨exported, bytes, ended, counted, stored, decoded⟩ :=
    Format.csv.exists_exported opened shown
  obtain ⟨count, text⟩ := write_eq records
  refine ⟨exported, bytes, _, ended, counted.trans count, stored, decoded, ?_⟩
  rw [Format.write, text]
  refine read_rows fun fields mem => ?_
  obtain rfl | mem := List.mem_cons.1 mem
  · simp [header]
  · obtain ⟨record, -, rfl⟩ := List.mem_map.1 mem
    simp [entries, header]

/-- A file name with a comma, double quotes, a row end and a letter beyond ASCII. -/
theorem exported_csv_reads_back_quotes :
    let records : List TraceRecord := [
      { line := some 1, protocol := some "AXI", width := 64, data := [1, 255]
        expected := some [] },
      { line := some 2, protocol := some "PRELOAD", detail := some "ram <- \"ü\", \r\n.hex" }]
    ∃ exported bytes text,
      Format.csv.exportTo {} (Path.ofString "trace.csv") records = .ok exported ∧
        exported.count = 2 ∧
        exported.tree.read (Path.ofString "trace.csv").toString = .ok bytes ∧
        Text.Utf8.decodeAll bytes = .ok text ∧
        read text = some [header,
          ["1", "AXI", "", "", "", "", "0", "0x0000000000000001 0x00000000000000FF", "", "done",
            ""],
          ["2", "PRELOAD", "", "", "", "", "0", "", "", "done", "ram <- \"ü\", \r\n.hex"]] := by
  intro records
  have opened : Tree.write {} (Path.ofString "trace.csv").toString [] =
      .ok (Tree.add {} ["trace.csv"] (.file [])) := by rfl
  have shown : ∀ record ∈ records, record.checkWidth = .ok () := by
    simp [records, TraceRecord.checkWidth, Number.checkWidth]
  have rows : records.map entries = [
      ["1", "AXI", "", "", "", "", "0", "0x0000000000000001 0x00000000000000FF", "", "done",
        ""],
      ["2", "PRELOAD", "", "", "", "", "0", "", "", "done", "ram <- \"ü\", \r\n.hex"]] := by
    decide +kernel
  have back := exported_csv_reads_back opened shown
  rwa [rows] at back

end BusScript.Trace.Csv
