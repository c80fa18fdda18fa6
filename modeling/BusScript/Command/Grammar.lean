import BusScript.Config
import BusScript.Command.Literal
import BusScript.Command.Parameter
import BusScript.Command.Token

/-!
# Grammar

From a command to the action it asks for. Each form checks its arguments in a fixed order, so that
of several faults in a line the same one is always named.
-/

namespace BusScript

/-- What resolving a command depends on. -/
structure Grammar where
  axiWidth : AxiWidth := .w64
  /-- The read limit of a poll that states none. -/
  maxPolls : Option Int := some 1000
  deriving DecidableEq, Repr

/-- The grammar for an AXI width in bits. -/
def Grammar.ofWidth (axiWidth maxPolls : Option Int) : Except SettingsFault Grammar :=
  match axiWidth.bind AxiWidth.ofBits? with
  | some axiWidth => .ok { axiWidth, maxPolls }
  | none => .error (.unsupportedWidth axiWidth)

namespace Grammar

/-! ## Arguments -/

/-- A step of resolving a command. -/
abbrev Resolving := Except CommandFault

/-- The command is refused. -/
def refuse {α : Type} (cause : Cause) : Resolving α :=
  .error (.ofCause cause)

/-- A check that may refuse the command. -/
def checked {α : Type} : Except Cause α → Resolving α
  | .ok a => .ok a
  | .error cause => refuse cause

/-- A hexadecimal word of so many bits. -/
def word (token : String) (width : Nat) : Resolving Int :=
  checked ((parseUnsigned token width).map Int.ofNat)

def address (token : String) : Resolving Int :=
  word token addressWidth

def words (tokens : List String) (width : Nat) : Resolving (List Int) :=
  tokens.mapM (word · width)

/-- The first argument and the others. -/
def oneArgument (command : Command) : Resolving (String × List String) :=
  match command.arguments with
  | first :: rest => .ok (first, rest)
  | [] => refuse (.tooFewArguments command.form 1)

/-- The first two arguments and the others. -/
def twoArguments (command : Command) : Resolving (String × String × List String) :=
  match command.arguments with
  | first :: second :: rest => .ok (first, second, rest)
  | _ => refuse (.tooFewArguments command.form 2)

/-- The AHB burst kind of the parameters, or the form's own. -/
def ahbKind (parameters : Parameters) (otherwise : AhbBurst) : AhbBurst :=
  ((parameters.field? "burst").bind ahbBurst?).getD otherwise

/-- The AHB transfer size of the parameters, a word if none is given. -/
def ahbSize (parameters : Parameters) : AhbSize :=
  ((parameters.field? "size").bind ahbSize?).getD .word

/-- The AXI burst kind of the parameters, rising if none is given. -/
def axiKind (parameters : Parameters) : AxiBurst :=
  ((parameters.field? "burst").bind axiBurst?).getD .incr

/-- An AXI burst length, from 0 to 255. -/
def axiLength (token : String) : Resolving Nat :=
  parseCount token "burst length" (some 255)

/-- The AXI burst length of the parameters, one beat if none is given. -/
def axiLengthOrOne (parameters : Parameters) : Resolving Nat :=
  match parameters.field? "length" with
  | some token => axiLength token
  | none => .ok 0

/-- A wrapping AXI burst has 2, 4, 8 or 16 beats and a fixed one at most 16. -/
def checkGeometry (form : Form) (kind : AxiBurst) (length : Nat) : Resolving Unit :=
  let beats := length + 1
  if kind = .wrap ∧ beats ∉ [2, 4, 8, 16] then refuse (.wrapBeats form beats)
  else if kind = .fixed ∧ 16 < beats then refuse (.fixedBeats form beats)
  else .ok ()

/-- Expected beats, where there are any. -/
def expectation (beats : List Int) : Option Data :=
  if beats.isEmpty then none else some (.beats beats)

/-! ## AHB forms -/

def ahbWrite (command : Command) : Resolving Transaction := do
  let (target, data, rest) ← twoArguments command
  let parameters ← checked (takeAll (Rule.table .ahb) rest)
  let address ← address target
  let payload ← word data ahbWidth
  return {
    operation := .write, address, width := ahbWidth
    burst := .ahb (ahbKind parameters .single)
    size := some (ahbSize parameters)
    payload := some (.word payload)
    line := command.line }

def ahbRead (command : Command) : Resolving Transaction := do
  let (target, rest) ← oneArgument command
  let parameters := takeFront (Rule.table .ahb) rest
  let expected ← match parameters.remainder with
    | [] => pure none
    | [token] => some <$> word token ahbWidth
    | _ :: extra :: _ => refuse (.tooManyTokens extra)
  let address ← address target
  return {
    operation := .read, address, width := ahbWidth
    burst := .ahb (ahbKind parameters .single)
    size := some (ahbSize parameters)
    expected := expected.map .word
    line := command.line }

def ahbBurstWrite (command : Command) : Resolving Transaction := do
  let (target, rest) ← match command.arguments with
    | first :: second :: rest => pure (first, second :: rest)
    | _ => refuse (.tooFewArguments command.form 2)
  let parameters := takeFront (Rule.table .ahb) rest
  let kind := ahbKind parameters .incr
  if parameters.remainder.isEmpty then refuse .missingData
  let data ← words parameters.remainder ahbWidth
  if let some needed := kind.beats? then
    if data.length ≠ needed then refuse (.beatMismatch (.ahbWrite kind needed data.length))
  let address ← address target
  return {
    operation := .burstWrite, address, width := ahbWidth
    burst := .ahb kind
    size := some (ahbSize parameters)
    length := data.length - 1
    payload := some (.beats data)
    line := command.line }

def ahbBurstRead (command : Command) : Resolving Transaction := do
  let (target, rest) ← oneArgument command
  let parameters := takeFront (Rule.table .ahb) rest
  let kind := ahbKind parameters .incr
  let expected ← words parameters.remainder ahbWidth
  let beats := kind.beats?.getD (max expected.length 1)
  let mismatch :=
    if expected.isEmpty ∨ expected.length = beats then none
    else some (BeatMismatch.ahbRead beats expected.length)
  let address ← address target
  return {
    operation := .burstRead, address, width := ahbWidth
    burst := .ahb kind
    size := some (ahbSize parameters)
    length := beats - 1
    expected := if mismatch.isSome then none else expectation expected
    line := command.line, mismatch }

/-! ## AXI forms -/

variable (grammar : Grammar)

def axiWrite (command : Command) : Resolving Transaction := do
  let (target, data, rest) ← twoArguments command
  let parameters ← checked (takeAll (Rule.table .axi) rest)
  let kind := axiKind parameters
  let length ← axiLengthOrOne parameters
  checkGeometry command.form kind length
  let address ← address target
  let payload ← word data grammar.axiWidth.bits
  return {
    operation := .write, address, width := grammar.axiWidth.bits
    burst := .axi kind, length
    payload := some (.word payload)
    line := command.line }

/-- Reads of one or of several beats. -/
def axiRead (operation : Operation) (command : Command) : Resolving Transaction := do
  let (target, rest) ← oneArgument command
  let parameters := takeFront (Rule.table .axi) rest
  let kind := axiKind parameters
  let length ← axiLengthOrOne parameters
  checkGeometry command.form kind length
  let expected ← words parameters.remainder grammar.axiWidth.bits
  let mismatch :=
    if expected.isEmpty ∨ expected.length = length + 1 then none
    else some (BeatMismatch.axiRead length expected.length)
  let address ← address target
  return {
    operation, address, width := grammar.axiWidth.bits
    burst := .axi kind, length
    expected := if mismatch.isSome then none else expectation expected
    line := command.line, mismatch }

def axiBurstWrite (command : Command) : Resolving Transaction := do
  let (target, rest) ← match command.arguments with
    | first :: second :: rest => pure (first, second :: rest)
    | _ => refuse (.tooFewArguments command.form 2)
  let parameters := takeFront (Rule.table .axi) rest
  let kind := axiKind parameters
  if parameters.remainder.isEmpty then refuse .missingData
  let data ← words parameters.remainder grammar.axiWidth.bits
  let length ← match parameters.field? "length" with
    | some token => do
      let length ← axiLength token
      if data.length ≠ length + 1 then
        refuse (.beatMismatch (.axiWrite length data.length))
      else pure length
    | none =>
      if 256 < data.length then refuse .burstTooLong else pure (data.length - 1)
  checkGeometry command.form kind length
  let address ← address target
  return {
    operation := .burstWrite, address, width := grammar.axiWidth.bits
    burst := .axi kind, length
    payload := some (.beats data)
    line := command.line }

/-! ## Forms of either bus -/

/-- The data width of a bus. -/
def width : Bus → Nat
  | .ahb => ahbWidth
  | .axi => grammar.axiWidth.bits

def poll (bus : Bus) (command : Command) : Resolving Poll := do
  let (target, value, rest) ← twoArguments command
  if let some extra := rest[2]? then refuse (.tooManyTokens extra)
  let width := grammar.width bus
  let mask ← match rest[0]? with
    | some token => word token width
    | none => pure (Int.pow 2 width - 1)
  let maxPolls ← match rest[1]? with
    | some token => do
      let limit ← parseCount token "poll limit" none
      if limit = 0 then refuse (.zeroPolls token) else pure (some (limit : Int))
    | none => pure grammar.maxPolls
  let address ← address target
  let expected ← word value width
  return { bus, address, expected, mask, maxPolls, width, line := command.line }

def wait (command : Command) : Resolving Wait :=
  match command.arguments with
  | [] => pure { cycles := 1, line := command.line }
  | [token] => do
    let cycles ← parseCount token "cycle count" none
    return { cycles, line := command.line }
  | _ :: extra :: _ => refuse (.tooManyTokens extra)

def preload (command : Command) : Resolving Preload :=
  match command.arguments with
  | [target, dataFile] => pure { target, dataFile, line := command.line }
  | arguments => refuse (.preloadArguments arguments)

/-- The action of a command, before a fault is given its line. -/
def action (command : Command) : Resolving Action :=
  match command.form with
  | .onBus .ahb .write => .transaction <$> ahbWrite command
  | .onBus .ahb .read => .transaction <$> ahbRead command
  | .onBus .ahb .burstWrite => .transaction <$> ahbBurstWrite command
  | .onBus .ahb .burstRead => .transaction <$> ahbBurstRead command
  | .onBus .axi .write => .transaction <$> axiWrite grammar command
  | .onBus .axi .read => .transaction <$> axiRead grammar .read command
  | .onBus .axi .burstWrite => .transaction <$> axiBurstWrite grammar command
  | .onBus .axi .burstRead => .transaction <$> axiRead grammar .burstRead command
  | .onBus bus .poll => .poll <$> poll grammar bus command
  | .wait => .wait <$> wait command
  | .preload => .preload <$> preload command

/-- The action a command asks for; a script error names the command's line. -/
def resolve (command : Command) : Except CommandFault Action :=
  (grammar.action command).mapError (·.atLine command.line)

/-- The action that the text of a line asks for. -/
def parse (text : String) (line : Option Int) : Except CommandFault Action :=
  match Command.ofTokens (tokenize text) line with
  | .ok command => grammar.resolve command
  | .error error => .error (.script error)

end Grammar

end BusScript
