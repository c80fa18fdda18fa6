import BusScript.Proofs.Text.Decoding
import BusScript.Trace.Export
import Mathlib.Tactic.SplitIfs

/-!
# Exported files

A path that opens for writing takes any bytes, and what is read there afterwards are the bytes that
were written: writing adds an entry for the place that the path leads to and keeps the directories
on the way to it (`Tree.read_of_write`). With that, `Trace.Format.exists_exported` says what an
export leaves behind in either format, down to the characters of the file. What a reader of the
format makes of the characters is not said here.
-/

namespace BusScript

namespace Tree

variable {tree : Tree} {place : List String} {node : Node}

/-! ## Places in a longer tree -/

theorem node?_add_self : (tree.add place node).node? place = some node := by
  simp [Tree.add, Tree.node?]

/-- What stands at another place still stands there. -/
theorem node?_add_of_ne {other : List String} {old : Node} (found : tree.node? other = some old)
    (differs : other ≠ place) : (tree.add place node).node? other = some old := by
  have untouched : (tree.add place node).nodes.lookup other = tree.nodes.lookup other := by
    have fresh : ((((List.range place.length).map place.take).filter fun place =>
        (tree.node? place).isNone).map (·, Node.directory)).lookup other = none := by
      rw [List.lookup_eq_none_iff]
      intro entry mem
      obtain ⟨above, isAbove, rfl⟩ := List.mem_map.1 mem
      have absent := (List.mem_filter.1 isAbove).2
      simp only [bne_iff_ne, ne_eq]
      rintro rfl
      simp [found] at absent
    have apart : (other == place) = false := by simpa using differs
    simp [Tree.add, List.lookup_append, List.lookup_cons, apart, fresh]
  simpa only [Tree.node?, untouched] using found

/-! ## Walks -/

/-- The place that a piece of a path leads to from a directory. -/
def advance (place : List String) (piece : String) : Except FileFault (List String) :=
  if piece = "" || piece = "." then .ok place
  else if piece = ".." then .ok (above place)
  else if nameLimit < piece.utf8ByteSize then .error .nameTooLong
  else .ok (place ++ [piece])

/-- A walk goes on from a directory only, and where it goes does not depend on the files. -/
theorem walk_cons_ok_iff {start : List String} {piece : String} {rest : List String}
    {reached : List String × Option Node} :
    tree.walk start (piece :: rest) = .ok reached ↔
      tree.node? start = some .directory ∧
        ∃ next, advance start piece = .ok next ∧ tree.walk next rest = .ok reached := by
  rw [Tree.walk]
  cases stands : tree.node? start with
  | none => simp [throw, throwThe, MonadExceptOf.throw]
  | some found =>
    cases found with
    | file bytes => simp [throw, throwThe, MonadExceptOf.throw]
    | directory =>
      unfold advance
      split_ifs <;> simp_all

theorem found_of_walk {pieces start : List String} {found : Option Node}
    (walked : tree.walk start pieces = .ok (place, found)) : found = tree.node? place := by
  induction pieces generalizing start with
  | nil => cases walked; rfl
  | cons piece rest ih =>
    obtain ⟨-, next, -, walked⟩ := walk_cons_ok_iff.1 walked
    exact ih walked

/-- A walk to no directory leads to the same place after something was put there. -/
theorem walk_add {pieces start : List String} {found : Option Node}
    (walked : tree.walk start pieces = .ok (place, found)) (free : found ≠ some .directory) :
    (tree.add place node).walk start pieces = .ok (place, some node) := by
  induction pieces generalizing start with
  | nil =>
    cases walked
    simp only [Tree.walk, node?_add_self]
  | cons piece rest ih =>
    obtain ⟨stands, next, advanced, walked⟩ := walk_cons_ok_iff.1 walked
    have passed : start ≠ place := by
      rintro rfl
      exact free (by rw [found_of_walk walked, stands])
    exact walk_cons_ok_iff.2 ⟨node?_add_of_ne stands passed, next, advanced, ih walked⟩

/-! ## Reading what was written -/

theorem resolve_add {path : String} {found : Option Node}
    (resolved : tree.resolve path = .ok (place, found)) (free : found ≠ some .directory) :
    (tree.add place node).resolve path = .ok (place, some node) := by
  have walks (start : List String)
      (walked : (tree.walk start (Path.pieces path)).mapError OpenFault.file = .ok (place, found)) :
      ((tree.add place node).walk start (Path.pieces path)).mapError OpenFault.file =
        .ok (place, some node) := by
    cases reached : tree.walk start (Path.pieces path) with
    | error fault => simp [reached, Except.mapError] at walked
    | ok there =>
      obtain rfl : there = (place, found) := by simpa [reached, Except.mapError] using walked
      rw [walk_add reached free]
      rfl
  unfold Tree.resolve at resolved ⊢
  split_ifs at resolved ⊢
  · exact walks ["/"] resolved
  · exact walks [] resolved

/-- A path is written where it leads to no directory, and where a new file has a directory to
stand in. -/
theorem write_ok_iff {path : String} {bytes : List UInt8} {written : Tree} :
    tree.write path bytes = .ok written ↔
      ∃ place found, tree.resolve path = .ok (place, found) ∧ found ≠ some .directory ∧
        (found = none → tree.node? place.dropLast = some .directory) ∧
        tree.add place (.file bytes) = written := by
  unfold Tree.write
  cases tree.resolve path with
  | error fault => simp [bind, Except.bind]
  | ok reached =>
    obtain ⟨place, found⟩ := reached
    simp only [bind, Except.bind, Except.ok.injEq, Prod.mk.injEq, and_assoc, exists_and_left,
      exists_eq_left']
    rcases found with _ | ⟨_ | _⟩
    · rcases above : tree.node? place.dropLast with _ | ⟨_ | _⟩ <;>
        simp [above, throw, throwThe, MonadExceptOf.throw, pure, Except.pure]
    · simp [pure, Except.pure]
    · simp [throw, throwThe, MonadExceptOf.throw]

/-- A path that takes some bytes takes any. -/
theorem exists_write_of_write {path : String} {bytes : List UInt8} {written : Tree}
    (opened : tree.write path bytes = .ok written) (others : List UInt8) :
    ∃ rewritten, tree.write path others = .ok rewritten := by
  obtain ⟨place, found, resolved, free, above, -⟩ := write_ok_iff.1 opened
  exact ⟨_, write_ok_iff.2 ⟨place, found, resolved, free, above, rfl⟩⟩

/-- What was written to a path is read there. -/
theorem read_of_write {path : String} {bytes : List UInt8} {written : Tree}
    (opened : tree.write path bytes = .ok written) : written.read path = .ok bytes := by
  obtain ⟨place, found, resolved, free, -, rfl⟩ := write_ok_iff.1 opened
  unfold Tree.read
  rw [resolve_add resolved free]
  rfl

end Tree

namespace Trace

/-! ## Records in writing -/

/-- Writing records one after the other counts them and lays their texts end to end. -/
theorem foldl_add (text : TraceRecord → List Char) (records : List TraceRecord)
    (written : Written) :
    (records.foldl (fun written record => written.add (text record)) written).count =
        written.count + records.length ∧
      (records.foldl (fun written record => written.add (text record)) written).text.toList =
        written.text.toList ++ records.flatMap text := by
  induction records generalizing written with
  | nil => simp
  | cons record rest ih =>
    obtain ⟨counted, spelled⟩ := ih (written.add (text record))
    simp only [List.foldl_cons, counted, spelled]
    simp [Written.add]
    omega

theorem forM_checkWidth_eq_ok {records : List TraceRecord}
    (shown : ∀ record ∈ records, record.checkWidth = .ok ()) :
    records.forM TraceRecord.checkWidth = .ok () := by
  induction records with
  | nil => rfl
  | cons record rest ih =>
    rw [List.forM_eq_forM, List.forM_cons, shown record List.mem_cons_self]
    exact ih fun other mem => shown other (List.mem_cons_of_mem _ mem)

/-- Where the path opens for writing and every record can be shown, an export ends well, reports the
count of the writer, and leaves a file that decodes to what the writer wrote. -/
theorem Format.exists_exported (format : Format) {tree emptied : Tree} {path : Path}
    {records : List TraceRecord} (opened : tree.write path.toString [] = .ok emptied)
    (shown : ∀ record ∈ records, record.checkWidth = .ok ()) :
    ∃ exported bytes, format.exportTo tree path records = .ok exported ∧
      exported.count = (format.write records).count ∧
      exported.tree.read path.toString = .ok bytes ∧
      Text.Utf8.decodeAll bytes = .ok (format.write records).text.toList := by
  obtain ⟨written, wrote⟩ := Tree.exists_write_of_write opened
    (Text.Utf8.encode (format.write records).text.toList)
  refine ⟨⟨(format.write records).count, written⟩, _, ?_, rfl, Tree.read_of_write wrote,
    Text.Utf8.decodeAll_encode _⟩
  simp only [Format.exportTo, wrote, forM_checkWidth_eq_ok shown]
  rfl

end Trace

end BusScript
