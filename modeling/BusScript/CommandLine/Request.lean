import BusScript.CommandLine.Options
import BusScript.Files.Tree
import BusScript.Number.Integer

/-!
# Requests

What a command line asks for: to show the help or the version, to check a script, or to run one on
the memory model.

The words are told apart first. Then the values are looked at one after the other, the options in
the order in which they were given and the script behind them, so that of several faults the first
is named. Words that are too many are a fault only when all others are in order.
-/

namespace BusScript.CommandLine

/-! ## Rules -/

def helpRule : OptionRule := { long := "--help" }

def versionRule : OptionRule := { long := "--version" }

/-- The options in front of the command. -/
def commonRules : List OptionRule :=
  [{ long := "--verbose", short := some 'v' }, versionRule, helpRule]

def widthRule : OptionRule := { long := "--axi-width", short := some 'w', takesValue := true }

def timeoutRule : OptionRule := { long := "--preload-timeout", takesValue := true }

def policyRule : OptionRule := { long := "--preload-policy", takesValue := true }

def intervalRule : OptionRule := { long := "--poll-interval", takesValue := true }

def pollsRule : OptionRule := { long := "--max-polls", takesValue := true }

def strictRule : OptionRule := { long := "--strict" }

def traceRule : OptionRule := { long := "--trace", short := some 't', takesValue := true }

def checkRules : List OptionRule := [widthRule, helpRule]

def runRules : List OptionRule :=
  [widthRule, timeoutRule, policyRule, intervalRule, pollsRule, strictRule, traceRule, helpRule]

/-! ## Words -/

/-- A command line with its words told apart. -/
inductive Invocation
  | help
  | version
  | check (given : Given)
  | run (given : Given)
  deriving DecidableEq, Repr

/-- The words of a command line, told apart. -/
def Invocation.ofWords (words : List String) : Except UsageFault Invocation := do
  let given ← readWords commonRules false words
  if given.has helpRule.long then return .help
  if given.has versionRule.long then return .version
  match given.arguments with
  | [] => throw .missingCommand
  | "check" :: rest => do
    let given ← readWords checkRules true rest
    return if given.has helpRule.long then .help else .check given
  | "run" :: rest => do
    let given ← readWords runRules true rest
    return if given.has helpRule.long then .help else .run given
  | name :: _ => throw (.unknownCommand name)

/-! ## Files -/

/-- A path holds a NUL. -/
def holdsNul (path : String) : Bool :=
  path.toList.any (·.toNat == 0)

/-- The script of a command line, which is a file. -/
def checkScript (tree : Tree) (script : String) : Except UsageFault Unit :=
  if holdsNul script then .error .nul
  else if !tree.holds script then .error (.noFile script)
  else if tree.isDirectory script then .error (.isDirectory script)
  else .ok ()

/-- The trace file of a command line, which is no directory. -/
def checkTrace (tree : Tree) (trace : String) : Except UsageFault Unit :=
  if holdsNul trace then .error .nul
  else if tree.isDirectory trace then .error (.isDirectory trace)
  else .ok ()

/-! ## Values -/

/-- What the options of a command choose. -/
structure Choices where
  axiWidth : AxiWidth := .w64
  /-- A bound on time is a double. -/
  preloadTimeout : Float := Number.Binary64.ofInt 1000000
  preloadPolicy : PreloadPolicy := .lastWins
  pollInterval : Int := 10
  maxPolls : Int := 1000
  strict : Bool := false
  /-- The file to write the trace to; an empty name stands for none. -/
  trace : String := ""

/-- The choices as settings. -/
def Choices.settings (choices : Choices) : Settings where
  axiWidth := some choices.axiWidth.bits
  preloadTimeout := .real choices.preloadTimeout
  preloadPolicy := some choices.preloadPolicy.name
  pollInterval := some choices.pollInterval
  maxPolls := some choices.maxPolls
  strict := some choices.strict

/-- The AXI width of a text, which is one of the two numbers to the letter. -/
def readWidth (text : String) : Option AxiWidth :=
  [AxiWidth.w64, .w128].find? fun width => toString width.bits == text

/-- A decimal integer. -/
def readInteger (text : String) : Option Int :=
  (Number.readInteger .ten text).toOption

/-- The choices with one more option. -/
def Choices.choose (tree : Tree) (choices : Choices) (option value : String) :
    Except UsageFault Choices := do
  let read {α : Type} (reader : String → Option α) : Except UsageFault α :=
    match reader value with
    | some a => .ok a
    | none => .error (.badValue option value)
  if option = widthRule.long then
    return { choices with axiWidth := ← read readWidth }
  else if option = timeoutRule.long then
    return { choices with preloadTimeout := ← read Number.Decimal.read? }
  else if option = policyRule.long then
    return { choices with preloadPolicy := ← read PreloadPolicy.ofName? }
  else if option = intervalRule.long then
    return { choices with pollInterval := ← read readInteger }
  else if option = pollsRule.long then
    return { choices with maxPolls := ← read readInteger }
  else if option = strictRule.long then
    return { choices with strict := true }
  else if option = traceRule.long then do
    checkTrace tree value
    return { choices with trace := value }
  else throw (.unknownOption option)

/-- The choices of some options, taken in their order. -/
def Choices.ofOptions (tree : Tree) (options : List (String × String)) :
    Except UsageFault Choices :=
  options.foldlM (fun choices (option, value) => choices.choose tree option value) {}

/-! ## Requests -/

/-- What a command line asks for. -/
inductive Request
  | help
  | version
  | check (script : String) (choices : Choices)
  | run (script : String) (choices : Choices)

/-- The script and the choices of a command. -/
def Given.read (tree : Tree) (given : Given) : Except UsageFault (String × Choices) := do
  let choices ← Choices.ofOptions tree given.settled
  match given.arguments with
  | [] => throw .missingScript
  | script :: extra =>
    checkScript tree script
    if extra.isEmpty then return (script, choices)
    throw (.extraArguments extra)

/-- What an invocation asks for, given the files there are. -/
def Invocation.request (tree : Tree) : Invocation → Except UsageFault Request
  | .help => .ok .help
  | .version => .ok .version
  | .check given => (given.read tree).map fun (script, choices) => .check script choices
  | .run given => (given.read tree).map fun (script, choices) => .run script choices

end BusScript.CommandLine
