import BusScript.Proofs.Trace.Export
import BusScript.Proofs.Trace.Json

/-!
# JSON lines read back

All that is written for a record are printable ASCII characters, so nothing in it ends a line, and a
file of JSON lines falls apart at its line feeds into the objects of its records. Each is read back
by the reader of JSON (`exported_json_lines_read_back`).
-/

namespace BusScript.Trace.Json

/-! ## Characters -/

/-- A printable ASCII character. -/
def isPlain (c : Char) : Bool :=
  0x20 ≤ c.toNat && c.toNat < 0x7F

theorem all_hexField (count n : Nat) : (Text.hexField count n).all isPlain = true := by
  have table : ∀ d < 16, isPlain (Text.smallHexDigit d) = true := by decide
  induction count generalizing n with
  | zero => rfl
  | succ count ih =>
    rw [Text.hexField, List.all_append, ih, List.all_cons, table _ (Nat.mod_lt n (by decide))]
    rfl

theorem all_escape (c : Char) : (escape c).all isPlain = true := by
  unfold escape
  split_ifs with mark feed returned tab backspace page printable
  · rcases mark with rfl | rfl <;> rfl
  · rfl
  · rfl
  · rfl
  · rfl
  · rfl
  · have bounds : 0x20 ≤ c.toNat ∧ c.toNat ≤ 0x7E := printable
    simp only [List.all_cons, List.all_nil, Bool.and_true, isPlain, Bool.and_eq_true,
      decide_eq_true_eq]
    omega
  · rw [List.all_flatMap]
    simp only [List.all_cons, all_hexField, Bool.and_true]
    simp [isPlain]

theorem all_string (text : String) : (string text).all isPlain = true := by
  simp only [string, List.all_cons, List.all_append, List.all_flatMap, all_escape, List.all_nil]
  simp [isPlain]

theorem all_toString (n : Int) : (toString n).toList.all isPlain = true := by
  have digits (n : Nat) : (Nat.toDigits 10 n).all isPlain = true := by
    rw [List.all_eq_true]
    intro c member
    have digit := Nat.isDigit_of_mem_toDigits (by decide) (by decide) member
    simp only [Char.isDigit, Bool.and_eq_true, decide_eq_true_eq] at digit
    have low : 48 ≤ c.toNat := digit.1
    have high : c.toNat ≤ 57 := digit.2
    simp only [isPlain, Bool.and_eq_true, decide_eq_true_eq]
    omega
  rw [Int.toString_eq_repr, Int.repr_eq_if]
  split
  · rw [Nat.toList_repr, digits]
  · simp only [String.toList_append, Nat.toList_repr, List.all_append, digits, Bool.and_true]
    rfl

theorem all_joined {texts : List (List Char)} (each : ∀ text ∈ texts, text.all isPlain = true) :
    (joined texts).all isPlain = true := by
  induction texts with
  | nil => rfl
  | cons first others ih =>
    have rest := ih fun text member => each text (List.mem_cons_of_mem _ member)
    have head := each first List.mem_cons_self
    cases others with
    | nil => simpa [joined, List.intercalate_singleton] using head
    | cons second others =>
      rw [joined_cons_cons, List.all_append, head, List.all_cons, List.all_cons, rest]
      rfl

theorem all_value (field : TraceRecord.Field) : (value field).all isPlain = true := by
  cases field with
  | missing => rfl
  | number n => exact all_toString n
  | text text => exact all_string text
  | texts texts =>
    have items : (joined (texts.map string)).all isPlain = true := by
      refine all_joined fun text member => ?_
      obtain ⟨text, -, rfl⟩ := List.mem_map.1 member
      exact all_string text
    simp only [value, List.cons_append, List.all_cons, List.all_append, items, List.all_nil]
    rfl

theorem all_object (members : List (String × TraceRecord.Field)) :
    (object members).all isPlain = true := by
  unfold object
  rw [List.cons_append, List.all_cons, List.all_append, all_joined]
  · rfl
  · intro text member
    obtain ⟨⟨name, field⟩, -, rfl⟩ := List.mem_map.1 member
    simp only [List.all_append, all_string, all_value]
    rfl

theorem ascii_of_all {text : List Char} (plain : text.all isPlain = true) :
    ∀ c ∈ text, c.toNat < 128 := by
  intro c member
  have bounds := List.all_eq_true.1 plain c member
  simp only [isPlain, Bool.and_eq_true, decide_eq_true_eq] at bounds
  omega

/-! ## Lines -/

theorem splitOn_lines {lines : List (List Char)} (unbroken : ∀ line ∈ lines, '\n' ∉ line) :
    (lines.flatMap (· ++ ['\n'])).splitOn '\n' = lines ++ [[]] := by
  have ends : lines.flatMap (· ++ ['\n']) = ['\n'].intercalate (lines ++ [[]]) := by
    induction lines with
    | nil => rfl
    | cons line rest ih =>
      have behind := ih fun line member => unbroken line (List.mem_cons_of_mem _ member)
      rw [List.flatMap_cons, behind]
      cases rest with
      | nil => simp [List.intercalate_cons_cons]
      | cons next rest =>
        rw [List.cons_append, List.cons_append, List.cons_append, List.intercalate_cons_cons]
  rw [ends, List.splitOn_intercalate _ _ (by simp)]
  intro line member
  rcases List.mem_append.1 member with member | last
  · exact unbroken line member
  · simp [List.mem_singleton.1 last]

/-- The dictionary form of a record. -/
def Value.ofRecord (record : TraceRecord) : Value :=
  .object (record.fields.map fun (name, field) => (name, .ofField field))

theorem write_eq (records : List TraceRecord) :
    (write records).count = records.length ∧
      (write records).text.toList =
        (records.map fun record => object record.fields).flatMap (· ++ ['\n']) := by
  obtain ⟨counted, spelled⟩ := foldl_add (fun record => object record.fields ++ ['\n']) records {}
  refine ⟨counted.trans (Nat.zero_add _), spelled.trans ?_⟩
  rw [List.flatMap_map]
  rfl

/-- A trace exported as JSON lines loses nothing of the dictionary form of its records. Where the
path opens for writing and every record has a dictionary form, the export ends well and reports the
number of records; the file is an ASCII text, it falls apart at its line feeds into one line for
each record in order with nothing behind the last line feed, and each line is read as the
dictionary form of its record. -/
theorem exported_json_lines_read_back {tree emptied : Tree} {path : Path}
    {records : List TraceRecord} (opened : tree.write path.toString [] = .ok emptied)
    (shown : ∀ record ∈ records, record.checkWidth = .ok ()) :
    ∃ exported bytes text lines, Format.jsonl.exportTo tree path records = .ok exported ∧
      exported.count = records.length ∧
      exported.tree.read path.toString = .ok bytes ∧
      Text.Utf8.decodeAll bytes = .ok text ∧
      (∀ c ∈ text, c.toNat < 128) ∧
      text.splitOn '\n' = lines ++ [[]] ∧
      List.Forall₂ (fun record line => line ≠ [] ∧ read line = some (.ofRecord record))
        records lines := by
  obtain ⟨exported, bytes, ended, counted, stored, decoded⟩ :=
    Format.jsonl.exists_exported opened shown
  obtain ⟨count, text⟩ := write_eq records
  refine ⟨exported, bytes, _, records.map fun record => object record.fields, ended,
    counted.trans count, stored, decoded, ?_, ?_, ?_⟩
  · rw [Format.write, text]
    intro c member
    obtain ⟨line, among, inside⟩ := List.mem_flatMap.1 member
    obtain ⟨record, -, rfl⟩ := List.mem_map.1 among
    rcases List.mem_append.1 inside with written | feed
    · exact ascii_of_all (all_object _) c written
    · rw [List.mem_singleton.1 feed]
      decide
  · rw [Format.write, text]
    refine splitOn_lines fun line among => ?_
    obtain ⟨record, -, rfl⟩ := List.mem_map.1 among
    intro feed
    exact absurd (List.all_eq_true.1 (all_object record.fields) _ feed) (by decide)
  · rw [List.forall₂_map_right_iff, List.forall₂_same]
    exact fun record _ => ⟨List.cons_ne_nil _ _, read_object record.fields⟩

/-- Control characters, a double quote, a backslash, a line feed and a letter beyond U+FFFF. -/
theorem exported_json_lines_read_back_escapes :
    let records : List TraceRecord := [
      { line := some (-1), protocol := none, status := some "\x00\x08\"\\\n\r\t𝄞ü", width := 128,
        data := [255], length := none },
      { line := none, protocol := some "WAIT", expected := some [] }]
    ∃ exported bytes text first second,
      Format.jsonl.exportTo {} (Path.ofString "trace.jsonl") records = .ok exported ∧
        exported.count = 2 ∧
        exported.tree.read (Path.ofString "trace.jsonl").toString = .ok bytes ∧
        Text.Utf8.decodeAll bytes = .ok text ∧
        (∀ c ∈ text, c.toNat < 128) ∧
        text.splitOn '\n' = [first, second, []] ∧ first ≠ [] ∧ second ≠ [] ∧
        read first = some (.object [
          ("line", .integer (-1)), ("protocol", .null), ("operation", .null), ("address", .null),
          ("burst", .null), ("size", .null), ("length", .null),
          ("data", .list [.text "0x000000000000000000000000000000FF"]), ("expected", .null),
          ("status", .text "\x00\x08\"\\\n\r\t𝄞ü"), ("detail", .null)]) ∧
        read second = some (.object [
          ("line", .null), ("protocol", .text "WAIT"), ("operation", .null), ("address", .null),
          ("burst", .null), ("size", .null), ("length", .integer 0), ("data", .list []),
          ("expected", .list []), ("status", .text "done"), ("detail", .null)]) := by
  intro records
  have opened : Tree.write {} (Path.ofString "trace.jsonl").toString [] =
      .ok (Tree.add {} ["trace.jsonl"] (.file [])) := by rfl
  have shown : ∀ record ∈ records, record.checkWidth = .ok () := by
    simp [records, TraceRecord.checkWidth, Number.checkWidth]
  have hex : Number.formatHex 255 128 = "0x000000000000000000000000000000FF" := by decide +kernel
  obtain ⟨exported, bytes, text, lines, ended, counted, stored, decoded, ascii, split, back⟩ :=
    exported_json_lines_read_back opened shown
  obtain ⟨first, rest, ⟨some, here⟩, behind, rfl⟩ := List.forall₂_cons_left_iff.mp back
  obtain ⟨second, rest, ⟨more, there⟩, none, rfl⟩ := List.forall₂_cons_left_iff.mp behind
  obtain rfl := List.forall₂_nil_left_iff.mp none
  refine ⟨exported, bytes, text, first, second, ended, counted, stored, decoded, ascii, split,
    some, more, here.trans ?_, there⟩
  rw [← hex]
  rfl

end BusScript.Trace.Json
