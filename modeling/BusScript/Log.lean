/-!
# Log records

What a run writes to its log: a level, the part of the engine that speaks, and a message.
-/

namespace BusScript

inductive LogLevel
  | debug
  | info
  | error
  deriving DecidableEq, Repr

def LogLevel.name : LogLevel → String
  | .debug => "DEBUG"
  | .info => "INFO"
  | .error => "ERROR"

/-- The parts of an engine that write to the log. -/
inductive Logger
  /-- The engine itself: script diagnostics and summaries. -/
  | engine
  /-- Checks that failed. -/
  | results
  /-- One record for every command that was carried out. -/
  | trace
  /-- The coordination of preloads. -/
  | preload
  /-- The memory model. -/
  | model
  deriving DecidableEq, Repr

def Logger.name : Logger → String
  | .engine => "cocotb.bus_stimulus"
  | .results => "cocotb.bus_stimulus.results"
  | .trace => "cocotb.bus_stimulus.trace"
  | .preload => "cocotb.bus_stimulus.preload"
  | .model => "cocotb.bus_stimulus.model"

structure LogRecord where
  level : LogLevel
  logger : Logger
  message : String
  deriving DecidableEq, Repr

end BusScript
