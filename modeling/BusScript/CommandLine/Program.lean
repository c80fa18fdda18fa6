import BusScript.Bench.Model
import BusScript.CommandLine.Request
import BusScript.Run.Engine
import BusScript.Text.Escape
import BusScript.Trace.Export

/-!
# The program

Checking a script reports every line in error. Running a script carries it out on the memory model,
where both buses and all preloads share one store, shows the counters in a table and may write the
trace to a file. Lines on the standard streams do not go to a terminal, so control sequences that
come in with a path or a script are left out of them.
-/

namespace BusScript.CommandLine

/-- What ends the program without an answer. -/
inductive Crash
  | run (fault : RunFault)
  | trace (fault : Trace.ExportFault)
  /-- A path holds a NUL. -/
  | nul

def Crash.message : Crash → String
  | .run fault => fault.message
  | .trace fault => fault.message
  | .nul => OpenFault.nul.message ""

/-- A text in a table, perhaps in a colour. -/
structure Cell where
  text : String
  colour : Option String := none
  deriving DecidableEq, Repr

/-- The text inside the marks of its colour. -/
def Cell.marked (cell : Cell) : String :=
  match cell.colour with
  | none => cell.text
  | some colour => s!"[{colour}]{cell.text}[/]"

/-- A table of two columns. -/
structure Table where
  title : String
  rows : List (String × Cell)
  deriving DecidableEq, Repr

/-- What the program leaves behind. -/
structure Outcome where
  exitCode : Nat := 0
  stdout : String := ""
  stderr : String := ""
  table : Option Table := none
  crash : Option Crash := none
  /-- The file that was written. -/
  saved : Option String := none
  /-- The files at the end. -/
  tree : Tree

/-- A line for one of the standard streams. -/
def plainLine (text : String) : String :=
  String.ofList (Text.dropSequences text.toList) ++ "\n"

/-- The exit code of a run or a check that found faults. -/
def failureCode : Nat := 1

/-- The exit code of a command line that is refused. -/
def usageCode : Nat := 2

/-! ## Checking -/

/-- What a check finds in a script's lines. -/
structure Findings where
  /-- The lines looked at. -/
  lines : Nat := 0
  errors : List ScriptError := []
  crash : Option RunFault := none
  deriving DecidableEq, Repr

/-- Parse the lines in order. -/
def diagnose (grammar : Grammar) : List (Nat × String) → Findings
  | [] => {}
  | (number, text) :: rest =>
    match grammar.parse text (some number) with
    | .ok _ =>
      let later := diagnose grammar rest
      { later with lines := later.lines + 1 }
    | .error (.script error) =>
      let later := diagnose grammar rest
      { later with lines := later.lines + 1, errors := error :: later.errors }
    | .error fault => { lines := 1, crash := some (.ofCommandFault fault) }

/-- Check a script: a line of text for every error, and a summary. -/
def check (tree : Tree) (script : String) (width : AxiWidth) : Outcome :=
  let (lines, fault, _) := (Script.Source.ofFile script).readAll tree
  let findings := diagnose { axiWidth := width } lines
  let told := String.join (findings.errors.map fun error => plainLine s!"{script}:{error.message}")
  match findings.crash, fault with
  | some crash, _ =>
    { exitCode := failureCode, stderr := told, crash := some (.run crash), tree }
  | none, some fault =>
    { exitCode := failureCode, stderr := told ++ plainLine s!"Error: {fault.message}", tree }
  | none, none =>
    { exitCode := if findings.errors.isEmpty then 0 else failureCode
      stdout := plainLine s!"{script}: {findings.lines} commands, {findings.errors.length} errors"
      stderr := told
      tree }

/-! ## Running -/

/-- A count in its row, in a colour unless it is zero. -/
def countCell (colour : String) (count : Nat) : Cell where
  text := toString count
  colour := if count = 0 then none else some colour

/-- The counters of a run as a table; what passed is coloured in any case. -/
def resultsTable (results : Results) (title : String) : Table where
  title := title
  rows := [
    ("Total checks", { text := toString results.total }),
    ("Passed", { text := toString results.passed, colour := some "green" }),
    ("Failed", countCell "red" results.failed),
    ("Script errors", countCell "yellow" results.errors),
    ("Preload timeouts", countCell "yellow" results.timeouts)]
    ++ if results.lastError = "" then [] else [("Last error", { text := results.lastError })]

/-- Digits in groups of three with commas between them. -/
def grouped (n : Nat) : String :=
  let rec commas : List Char → List Char
    | a :: b :: c :: d :: rest => a :: b :: c :: ',' :: commas (d :: rest)
    | digits => digits
  String.ofList (commas (toString n).toList.reverse).reverse

/-- The engine of the program: the memory model behind both buses, images seen from the directory of
the script. -/
def engine (tree : Tree) (script : Path) (config : Config) : Engine Model.World where
  bench := Model.bench {
    axiWidth := config.axiWidth.bits
    files := tree
    baseDir := some script.parent
    targetsShared := true }
  config := config

/-- Run a script and report on it: whether it was fine. -/
def runScript (tree : Tree) (script : Path) (config : Config) : Run Model.World Bool := do
  let engine := engine tree script config
  let _ ← engine.run tree (.ofFile script.toString)
  engine.report

/-- Run a script on the model, and write its trace to a file unless the name of that is empty. -/
def run (tree : Tree) (script trace : String) (config : Config) : Outcome :=
  let script := Path.ofString script
  match (runScript tree script config).run { world := {} } with
  | .error fault _ => { exitCode := failureCode, crash := some (.run fault), tree }
  | .ok fine state =>
    let title := s!"{script.name}: " ++ if fine then "PASS" else "FAIL"
    let outcome : Outcome := {
      exitCode := if fine then 0 else failureCode
      table := some (resultsTable state.results title)
      tree }
    if trace = "" then outcome
    else
      let path := Path.ofString trace
      match Trace.exportTo tree path "auto" state.traces.toList with
      | .error fault => { outcome with exitCode := failureCode, crash := some (.trace fault) }
      | .ok exported => { outcome with
          stdout := plainLine s!"Wrote {grouped exported.count} trace records to {trace}"
          saved := some path.toString
          tree := exported.tree }

/-! ## Command lines -/

/-- A command line is refused; a NUL in a path is not looked for and ends the program. -/
def refuse (tree : Tree) : UsageFault → Outcome
  | .nul => { exitCode := failureCode, crash := some .nul, tree }
  | fault => { exitCode := usageCode, stderr := plainLine s!"Error: {fault.message}", tree }

/-- What the help says. -/
def helpText : String :=
  "Usage: bus-stim [-v] [--version] check SCRIPT [-w 64|128]\n"
  ++ "       bus-stim [-v] run SCRIPT [-w 64|128] [--preload-timeout NS]\n"
  ++ "           [--preload-policy last-wins|abort] [--poll-interval CYCLES]\n"
  ++ "           [--max-polls COUNT] [--strict] [-t FILE]\n"

def versionText : String := "bus-stim, version 0.1.0\n"

/-- Serve a request. -/
def serve (tree : Tree) : Request → Outcome
  | .help => { stdout := helpText, tree }
  | .version => { stdout := versionText, tree }
  | .check script choices => check tree script choices.axiWidth
  | .run script choices => match choices.settings.validate with
    | .error fault => refuse tree (.settings fault)
    | .ok config => run tree script choices.trace config

/-- Carry out a command line. -/
def program (tree : Tree) (words : List String) : Outcome :=
  match Invocation.ofWords words >>= Invocation.request tree with
  | .ok request => serve tree request
  | .error fault => refuse tree fault

end BusScript.CommandLine
