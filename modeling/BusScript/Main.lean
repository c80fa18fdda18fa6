import BusScript.CommandLine.Program

/-!
# Command line

The outer layer of the program: it looks up the files that a command line is about, carries the
command line out, and writes what comes of it.
-/

namespace BusScript

/-- What stands at a path, if anything does. Reading a directory fails with a code of its own. -/
def probe (path : String) : IO (Option Node) := do
  try
    return some (.file (← IO.FS.readBinFile path).toList)
  catch
    | .inappropriateType _ 21 _ => return some .directory
    | _ => return none

/-- The place that a path leads to, without a look at the files. -/
def placeOf (path : String) : List String :=
  let path := Path.ofString path
  path.components.foldl
    (fun place name => if name = ".." then Tree.above place else place ++ [name])
    (if path.isAbsolute then ["/"] else [])

/-- The tree with what stands at some paths. -/
def gather (tree : Tree) (paths : List String) : IO Tree :=
  paths.foldlM (fun tree path => do
    match ← probe path with
    | some node => return tree.add (placeOf path) node
    | none => return tree) tree

/-- The paths that a command line is about: its script, and its trace file with the directory of
that. -/
def pathsOf : CommandLine.Invocation → List String
  | .check given => given.arguments
  | .run given =>
    let trace := (given.value? CommandLine.traceRule.long).getD ""
    given.arguments ++ [trace, (Path.ofString trace).parent.toString]
  | _ => []

/-- The image files that the lines of a script ask for. -/
def imagesOf (tree : Tree) (script : String) : List String :=
  let base := (Path.ofString script).parent
  let (lines, _, _) := (Script.Source.ofFile script).readAll tree
  lines.filterMap fun (number, text) =>
    match ({} : Grammar).parse text (some number) with
    | .ok (.preload request) => some (base.join (Path.ofString request.dataFile)).toString
    | _ => none

/-- The files that a command line is about. -/
def files (words : List String) : IO Tree := do
  match CommandLine.Invocation.ofWords words with
  | .error _ => return {}
  | .ok invocation =>
    let tree ← gather {} (pathsOf invocation)
    match invocation with
    | .run given => gather tree (given.arguments.flatMap (imagesOf tree))
    | _ => return tree

/-- Show a table, one row a line. -/
def showTable (table : CommandLine.Table) : IO Unit := do
  IO.println table.title
  for (metric, cell) in table.rows do
    IO.println s!"{metric}: {cell.text}"

end BusScript

open BusScript in
def main (words : List String) : IO UInt32 := do
  let outcome := CommandLine.program (← files words) words
  if let some table := outcome.table then showTable table
  if let some path := outcome.saved then
    if let .ok bytes := outcome.tree.read path then
      IO.FS.writeBinFile path ⟨bytes.toArray⟩
  IO.print outcome.stdout
  IO.eprint outcome.stderr
  if let some crash := outcome.crash then IO.eprintln crash.message
  return UInt32.ofNat outcome.exitCode
