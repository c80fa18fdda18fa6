import BusScript.Action
import BusScript.Command.Form
import BusScript.Number.Integer

/-!
# Script errors

Why a script line is no command that can be executed. An error has a cause, and the line it was
found on once that is known. Its message gives the line, the reason and, where one can be named, the
offending token.
-/

namespace BusScript

/-- The families of script errors. -/
inductive ErrorKind
  /-- The line is no command, or nothing attached can serve it. -/
  | command
  /-- A literal is malformed or too large for its place. -/
  | value
  /-- The beat data do not fit the burst. -/
  | beatCount
  /-- No transactor is attached for the bus. -/
  | transactor
  deriving DecidableEq, Repr

/-- What is wrong with a line. -/
inductive Cause
  | emptyCommand
  | unknownProtocol (token : String)
  | missingOperation (protocol : String)
  | unknownOperation (token : String)
  | malformedHex (token : String)
  | tooWide (width : Int) (token : String)
  | malformedCount (what token : String)
  | countAbove (what : String) (maximum : Int) (token : String)
  | parameterExpected (name token : String)
  | tooManyTokens (token : String)
  | tooFewArguments (form : Form) (needed : Nat)
  | wrapBeats (form : Form) (beats : Nat)
  | fixedBeats (form : Form) (beats : Nat)
  | missingData
  | burstTooLong
  | beatMismatch (mismatch : BeatMismatch)
  | zeroPolls (token : String)
  | preloadArguments (arguments : List String)
  | noClock
  | noLoader
  | noTransactor (bus : Bus)
  /-- An error in a caller's own words. -/
  | stated (kind : ErrorKind) (reason : String) (token : Option String)
  deriving DecidableEq, Repr

namespace Cause

def kind : Cause → ErrorKind
  | .malformedHex .. | .tooWide .. | .malformedCount .. | .countAbove .. => .value
  | .beatMismatch _ => .beatCount
  | .noTransactor _ => .transactor
  | .stated kind .. => kind
  | _ => .command

/-- The reason without line and token. -/
def reason : Cause → String
  | .emptyCommand => "empty command"
  | .unknownProtocol _ => "unrecognized protocol"
  | .missingOperation protocol => s!"missing operation after {protocol}"
  | .unknownOperation _ => "unrecognized operation"
  | .malformedHex _ => "malformed hex literal"
  | .tooWide width _ => s!"value exceeds {width}-bit width"
  | .malformedCount what _ => s!"malformed {what}"
  | .countAbove what maximum _ => s!"{what} exceeds maximum of {maximum}"
  | .parameterExpected name _ => s!"expected {name}"
  | .tooManyTokens _ => "too many tokens"
  | .tooFewArguments form needed =>
    s!"{form.name} needs {needed} argument(s), usage: {form.usage}"
  | .wrapBeats form beats =>
    s!"WRAP burst must be 2, 4, 8 or 16 beats, got {beats}, usage: {form.usage}"
  | .fixedBeats form beats =>
    s!"FIXED burst must be at most 16 beats, got {beats}, usage: {form.usage}"
  | .missingData => "missing burst data"
  | .burstTooLong => "burst exceeds 256 beats"
  | .beatMismatch mismatch => mismatch.reason
  | .zeroPolls _ => "poll limit must be at least 1"
  | .preloadArguments _ => s!"wrong number of arguments, usage: {Form.preload.usage}"
  | .noClock => "WAIT needs a clock, none attached"
  | .noLoader => "PRELOAD needs a preload port, none attached"
  | .noTransactor bus => s!"no {bus.name} transactor attached"
  | .stated _ reason _ => reason

/-- The offending token, where one can be named. -/
def token? : Cause → Option String
  | .unknownProtocol token | .unknownOperation token | .malformedHex token | .tooWide _ token
  | .malformedCount _ token | .countAbove _ _ token | .parameterExpected _ token
  | .tooManyTokens token | .zeroPolls token => some token
  | .preloadArguments arguments =>
    let joined := " ".intercalate arguments
    if joined.isEmpty then none else some joined
  | .stated _ _ token => token
  | _ => none

/-- The reason, the token in apostrophes behind it and the line in front, so far as known. -/
def text (cause : Cause) (line : Option Int) : String :=
  let reason := match cause.token? with
    | none => cause.reason
    | some token => s!"{cause.reason} ('{token}')"
  match line with
  | none => reason
  | some line => s!"line {line}: {reason}"

end Cause

/-- An error on a line, or on no known line. -/
structure ScriptError where
  cause : Cause
  line : Option Int := none
  /-- What the error tells. It is put together when the error is made, and once more when its line
  becomes known. -/
  message : String := cause.text line
  deriving DecidableEq, Repr

namespace ScriptError

/-- The error on a line, unless its line is known already. -/
def atLine (line : Option Int) (error : ScriptError) : ScriptError :=
  match error.line with
  | none => { error with line, message := error.cause.text line }
  | some _ => error

/-- The error tells its cause, and its line as far as that is known. -/
def Told (error : ScriptError) : Prop :=
  error.message = error.cause.text error.line

theorem Told.atLine {error : ScriptError} (told : error.Told) (line : Option Int) :
    (error.atLine line).Told := by
  unfold ScriptError.atLine
  split
  · rfl
  · exact told

end ScriptError

/-- Why a line gives no action: a script error, or a decimal count of more digits than are read. The
second is no script error and is not skipped like one. -/
inductive CommandFault
  | script (error : ScriptError)
  | countTooLong (digits : Nat)
  deriving DecidableEq, Repr

namespace CommandFault

def message : CommandFault → String
  | .script error => error.message
  | .countTooLong digits => Number.tooManyDigits digits

def atLine (line : Option Int) : CommandFault → CommandFault
  | .script error => .script (error.atLine line)
  | .countTooLong digits => .countTooLong digits

/-- The fault of a cause whose line is not known yet. -/
def ofCause (cause : Cause) : CommandFault :=
  .script { cause }

end CommandFault

end BusScript
