import BusScript.Bus.Protocol

/-!
# Command forms

The kinds of command a script can hold, with the name and the usage line that diagnostics show.
-/

namespace BusScript

/-- The kinds of command. -/
inductive Form
  | onBus (bus : Bus) (operation : Operation)
  | wait
  | preload
  deriving DecidableEq, Repr

namespace Form

/-- The family of a form, whose name is the first keyword. -/
def protocol : Form → Protocol
  | .onBus bus _ => .bus bus
  | .wait => .wait
  | .preload => .preload

/-- The second keyword, where the form has one. -/
def operation? : Form → Option Operation
  | .onBus _ operation => some operation
  | _ => none

/-- The keywords of a form. -/
def name (form : Form) : String :=
  match form.operation? with
  | none => form.protocol.name
  | some operation => s!"{form.protocol.name} {operation.name}"

/-- What the legal AXI burst lengths are. -/
def lengthNote : String := " (WRAP needs len 1, 3, 7 or 15; FIXED at most len 15)"

/-- How a form is written. -/
def usage : Form → String
  | .onBus .ahb .write => "AHB WRITE <addr> <data> [burst] [size]"
  | .onBus .ahb .read => "AHB READ <addr> [burst] [size] [expected]"
  | .onBus .ahb .burstWrite => "AHB BURST_WRITE <addr> [burst] [size] <data>..."
  | .onBus .ahb .burstRead => "AHB BURST_READ <addr> [burst] [size] [expected]..."
  | .onBus .ahb .poll => "AHB POLL <addr> <expected> [mask] [max_polls]"
  | .onBus .axi .write => "AXI WRITE <addr> <data> [burst] [len]" ++ lengthNote
  | .onBus .axi .read => "AXI READ <addr> [burst] [len] [expected]..." ++ lengthNote
  | .onBus .axi .burstWrite => "AXI BURST_WRITE <addr> [burst] [len] <data>..." ++ lengthNote
  | .onBus .axi .burstRead => "AXI BURST_READ <addr> [burst] [len] [expected]..." ++ lengthNote
  | .onBus .axi .poll => "AXI POLL <addr> <expected> [mask] [max_polls]"
  | .wait => "WAIT [cycles]"
  | .preload => "PRELOAD <hier_path> <data_file>"

end Form

end BusScript
