import BusScript.Command.Error
import BusScript.Bench.Basic
import BusScript.Trace.Record

/-!
# Runs

A run changes the counters, the state of preloads, the trace, the log and the state of the bench. It
can end ahead of its script, and what it did before then stays done.
-/

namespace BusScript

/-- What ends a run ahead of its script. -/
inductive RunFault
  | script (error : ScriptError)
  /-- A decimal count has more digits than are read. -/
  | countTooLong (digits : Nat)
  /-- A wait for a preload ran into its bound, and the policy is to stop. -/
  | preloadTimeout (message : String)
  | call (fault : CallFault)
  /-- A transactor answered a poll with no beats. -/
  | noBeats
  /-- The path of the script holds a NUL. -/
  | nul
  /-- Something that is no action, as the complaint shows it. -/
  | unknownAction (shown : String)
  /-- A preload or a handle is needed where there is none. -/
  | missing (name : String)
  deriving DecidableEq, Repr

def RunFault.ofCommandFault : CommandFault → RunFault
  | .script error => .script error
  | .countTooLong digits => .countTooLong digits

def RunFault.message : RunFault → String
  | .script error => error.message
  | .countTooLong digits => Number.tooManyDigits digits
  | .preloadTimeout message => message
  | .call fault => fault.message
  | .noBeats => "list index out of range"
  | .nul => "embedded null byte"
  | .unknownAction shown => s!"unknown action {shown}"
  | .missing name => s!"'NoneType' object has no attribute '{name}'"

/-- The preloads as a run knows them. Its coordinator writes each part on its own. -/
structure PreloadState where
  inProgress : Bool := false
  /-- The handle that was issued for the preload in progress. -/
  completion : Option Nat := none
  /-- The preload that was asked for last. -/
  lastRequest : Option Preload := none
  deriving DecidableEq, Repr

namespace PreloadState

/-- The name of the phase. -/
def phase (state : PreloadState) : String :=
  if state.inProgress then "in_progress" else "idle"

/-- Another preload is asked for last, and what is outstanding stays outstanding. -/
def withLast (p : Preload) (state : PreloadState) : PreloadState :=
  { state with lastRequest := some p }

end PreloadState

structure RunState (σ : Type) where
  /-- The state of the bench. -/
  world : σ
  results : Results := {}
  preloads : PreloadState := {}
  traces : Array TraceRecord := #[]
  log : Array LogRecord := #[]

/-- A part of a run. -/
abbrev Run (σ : Type) := EStateM RunFault (RunState σ)

namespace Run

variable {σ α : Type}

/-- Write to the log. -/
def say (level : LogLevel) (logger : Logger) (message : String) : Run σ Unit :=
  modify fun s => { s with log := s.log.push ⟨level, logger, message⟩ }

/-- Ask the bench. -/
def ask (effect : Effect σ α) : Run σ α := fun s =>
  let response := effect s.world
  let s := { s with world := response.state, log := s.log ++ response.logs.toArray }
  match response.result with
  | .ok a => .ok a s
  | .error fault => .error (.call fault) s

/-- Change the counters. -/
def count (change : Results → Results) : Run σ Unit :=
  modify fun s => { s with results := change s.results }

/-- Enter a verdict, which a failure tells the log. -/
def enter (verdict : Verdict) : Run σ Unit := do
  count (·.record verdict)
  if let .fail failure := verdict then say .error .results failure.message

/-- Add a record to the trace and tell the log. -/
def emit (record : TraceRecord) : Run σ Unit := do
  let outcome := if record.status = some Status.done.name then ""
    else s!" -> {TraceRecord.nameOrNone record.status}"
  say .info .trace (record.text ++ outcome)
  modify fun s => { s with traces := s.traces.push record }

end Run

end BusScript
