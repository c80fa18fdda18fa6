import BusScript.Command.Grammar
import BusScript.Run.Preload
import BusScript.Script.Source
import BusScript.Text.Foreign

/-!
# The engine

Lines are carried out in the order of the script. A line in error is counted and skipped, checks
are scored, and every command that was carried out leaves one trace record. A script that cannot be
read aborts the run.
-/

namespace BusScript

/-- A bench and the configuration to run with. -/
structure Engine (σ : Type) where
  bench : Bench σ
  config : Config := {}

namespace Engine

variable {σ : Type}

/-- The engine of a bench under settings. What it is made of looks at the settings once more. -/
def ofSettings (bench : Bench σ) (settings : Settings) : Except SettingsFault (Engine σ) := do
  let config ← settings.validate
  let _ ← Grammar.ofWidth settings.axiWidth settings.maxPolls
  if let some loader := bench.loader then
    let _ ← Coordinator.ofPolicyName loader settings.preloadTimeout settings.preloadPolicy
  return { bench, config }

variable (e : Engine σ)

/-- The grammar of the engine's scripts. -/
def grammar : Grammar where
  axiWidth := e.config.axiWidth
  maxPolls := some e.config.maxPolls

/-- What coordinates preloads, where the bench has a loader. -/
def coordinator? : Option (Coordinator σ) :=
  e.bench.loader.map fun loader =>
    ⟨loader, e.config.preloadTimeout, e.config.preloadPolicy⟩

/-- The action that a line asks for. -/
def parse (text : String) (line : Option Int) : Except CommandFault Action :=
  e.grammar.parse text line

/-- The line is in error. -/
def reject {α : Type} (cause : Cause) (line : Option Int) : Run σ α :=
  throw (.script { cause, line })

/-! ## Transactions -/

/-- The transactor of a bus; without one the line is in error. -/
def transactor (bus : Bus) (line : Option Int) : Run σ (Transactor σ) :=
  match e.bench.transactor? bus with
  | some transactor => pure transactor
  | none => reject (.noTransactor bus) line

/-- Carry out a transaction on its bus: the data it observed, if it reads. -/
def dispatch (t : Transaction) : Run σ (Option Data) := do
  let transactor ← e.transactor t.bus t.line
  match t.operation, t.bus with
  | .write, _ => do
    Run.ask (transactor (.write t.address t.payloadWord t.burst t.shape))
    return none
  | .burstWrite, _ => do
    Run.ask (transactor (.writeBurst t.address t.payloadBeats t.burst t.shape))
    return none
  | .read, .ahb => do
    let word ← Run.ask (transactor (.read t.address t.burst t.shape))
    return some (.word word)
  | _, _ => do
    let beats ← Run.ask (transactor (.readBurst t.address t.burst t.length (.size t.size)))
    return some (.beats beats)

/-- The status of a transaction that observed some data, after its check, if it has one. -/
def check (t : Transaction) (observed : Data) : Run σ Status :=
  if t.mismatch.isSome then pure .unscored
  else match t.score observed with
    | none => pure .done
    | some verdict => do
      Run.enter verdict
      return if verdict.passed then .pass else .fail

/-- Carry out and check a transaction. One whose expected beats cannot be compared is carried out,
traced, and an error all the same. -/
def transaction (t : Transaction) : Run σ Unit := do
  let observed ← e.dispatch t
  match observed with
  | some data =>
    let status ← check t data
    Run.emit (.ofTransaction t data status)
  | none => Run.emit (.ofTransaction t t.payload .done)
  if let some mismatch := t.mismatch then reject (.beatMismatch mismatch) t.line

/-! ## Waits and polls -/

/-- Wait for a number of cycles. Without a clock only no cycles at all can be waited for. -/
def waitCycles (cycles : Nat) (line : Option Int) : Run σ Unit :=
  if cycles = 0 then pure ()
  else match e.bench.clock with
    | none => reject .noClock line
    | some clock => Run.ask (clock cycles)

def wait (w : Wait) : Run σ Unit := do
  e.waitCycles w.cycles w.line
  Run.emit (.ofWait w)

/-- One read of a polled register: a word on AHB, the first beat of a burst of one on AXI. -/
def readWord (p : Poll) : Run σ Int := do
  let transactor ← e.transactor p.bus p.line
  match p.bus with
  | .ahb => Run.ask (transactor (.read p.address (.ahb .single) (.size (some .word))))
  | .axi => do
    let beats ← Run.ask (transactor (.readBurst p.address (.axi .incr) 0 (.size none)))
    match beats with
    | word :: _ => return word
    | [] => throw .noBeats

/-- What a poll came to: the word it read last, whether that is what it polled for, and how many
reads it made. -/
structure PollOutcome where
  observed : Option Int := none
  matched : Bool := false
  reads : Nat := 0
  deriving DecidableEq, Repr

/-- Read up to `remaining` times, until the masked bits are the expected ones, pausing between two
reads. -/
def pollReads (p : Poll) (sofar : PollOutcome) : (remaining : Nat) → Run σ PollOutcome
  | 0 => return sofar
  | remaining + 1 => do
    let word ← e.readWord p
    let reads := sofar.reads + 1
    if Number.bitAnd word p.mask = Number.bitAnd p.expected p.mask then
      return ⟨some word, true, reads⟩
    if remaining ≠ 0 then e.waitCycles e.config.pollInterval p.line
    pollReads p ⟨some word, false, reads⟩ remaining

def poll (p : Poll) : Run σ Unit := do
  let outcome ← e.pollReads p {} (p.maxPolls.getD 0).toNat
  Run.enter (p.score outcome.observed outcome.matched outcome.reads)
  Run.emit (.ofPoll p outcome.observed outcome.matched outcome.reads)

/-! ## Preloads -/

def preload (p : Preload) : Run σ Unit := do
  match e.coordinator? with
  | none => reject .noLoader p.line
  | some coordinator =>
    let completed ← coordinator.request p
    Run.emit (.ofPreload p completed)

/-! ## Lines and scripts -/

def execute : Action → Run σ Unit
  | .transaction t => e.transaction t
  | .poll p => e.poll p
  | .wait w => e.wait w
  | .preload p => e.preload p

/-- Something that is no action is refused. -/
def refuse (value : Text.Foreign) : Run σ Unit :=
  throw (.unknownAction value.shown)

/-- Carry out what a line asks for. -/
def perform (text : String) (line : Option Int) : Run σ Unit :=
  match e.parse text line with
  | .ok action => e.execute action
  | .error fault => throw (.ofCommandFault fault)

/-- Carry out a line; an error in it is logged and counted. -/
def executeLine (text : String) (line : Option Int) : Run σ Unit :=
  tryCatch (e.perform text line) fun
    | .script error => do
      Run.count Results.recordError
      Run.say .error .engine error.message
    | fault => throw fault

/-- Carry out numbered lines in their order. -/
def executeLines : List (Nat × String) → Run σ Unit
  | [] => pure ()
  | (number, text) :: rest => do
    e.executeLine text (some number)
    executeLines rest

/-- The script cannot be read on. -/
def abort (message : String) : Run σ Unit := do
  Run.count (·.abort message)
  Run.say .error .engine message

/-- Wait for an outstanding preload, where the bench has a loader. -/
def settle : Run σ Unit := do
  if let some coordinator := e.coordinator? then
    let _ ← coordinator.settle

/-- Carry out every line of a script. A script that cannot be opened does nothing; one that breaks
off is carried out up to there. -/
def run (tree : Tree) (source : Script.Source) : Run σ Results := do
  match source.opened tree with
  | .error .nul => throw .nul
  | .error fault => abort fault.message
  | .ok source =>
    Run.say .info .engine s!"Running stimulus script {source.name}"
    let (lines, fault, _) := source.readAll tree
    e.executeLines lines
    if let some fault := fault then abort fault.message
    e.settle
  return (← get).results

/-- Log the summary of the run; whether the run is fine. -/
def report : Run σ Bool := do
  let results := (← get).results
  let fine := results.ok e.config.strict
  if fine then
    Run.say .info .engine s!"{results.summary} - PASS"
  else
    Run.say .error .engine s!"{results.summary} - FAIL"
    if results.lastError ≠ "" then
      Run.say .error .engine s!"Last error: {results.lastError}"
  return fine

end Engine

end BusScript
