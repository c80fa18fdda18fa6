import BusScript.Bus.Protocol
import BusScript.Text.Blank
import BusScript.Text.Capital
import BusScript.Text.Quoted
import BusScript.Number.Decimal

/-!
# Configuration

Settings are what a caller or an environment asks for; a configuration is what an engine can run
with. `Settings.validate` leads from one to the other and names the first setting that stands in the
way.
-/

namespace BusScript

/-! ## Bounds on time -/

/-- A bound on waiting, given as an integer or as a double, or no bound at all. -/
inductive TimeBound
  | whole (value : Int)
  | real (value : Float)
  | unlimited

/-- The bound as messages show it. -/
def TimeBound.text : TimeBound → String
  | .whole value => toString value
  | .real value => Number.Decimal.write value
  | .unlimited => "None"

def TimeBound.toFloat : TimeBound → Float
  | .whole value => Number.Binary64.ofInt value
  | .real value => value
  | .unlimited => Float.ofBits (UInt64.ofNat Number.Binary64.infinityBits)

/-- A bound that ends some time after now. -/
def TimeBound.isPositive : TimeBound → Bool
  | .whole value => 0 < value
  | .real value => value.isFinite && 0 < value
  | .unlimited => true

/-- The value of an integer bound that is beyond every finite double. -/
def TimeBound.huge? : TimeBound → Option Int
  | .whole value => if (Number.Binary64.ofInt value).isInf then some value else none
  | .real _ | .unlimited => none

def TimeBound.isUnlimited : TimeBound → Bool
  | .unlimited => true
  | _ => false

/-! ## Policies -/

/-- What happens when the wait for an earlier preload runs into its bound. -/
inductive PreloadPolicy
  /-- The timeout is counted and the new request goes ahead. -/
  | lastWins
  /-- The run stops. -/
  | abort
  deriving DecidableEq, Repr

def PreloadPolicy.name : PreloadPolicy → String
  | .lastWins => "last-wins"
  | .abort => "abort"

def PreloadPolicy.all : List PreloadPolicy := [.lastWins, .abort]

/-- The policy of a name, which is matched to the letter. -/
def PreloadPolicy.ofName? (name : String) : Option PreloadPolicy :=
  PreloadPolicy.all.find? (·.name == name)

/-! ## Settings -/

/-- The settings of an engine as they are asked for. Each may be asked to be nothing, the bound on
time to be none, which only the unit and the switch put up with; a switch of nothing is off. -/
structure Settings where
  /-- AXI data width in bits. -/
  axiWidth : Option Int := some 64
  /-- Bound on waiting for a preload. -/
  preloadTimeout : TimeBound := .whole 1000000
  /-- Time unit of the bound. -/
  preloadTimeoutUnit : Option String := some "ns"
  preloadPolicy : Option String := some PreloadPolicy.lastWins.name
  /-- Cycles between the reads of a poll. -/
  pollInterval : Option Int := some 10
  /-- Reads of a poll that states no limit. -/
  maxPolls : Option Int := some 1000
  /-- Script errors and preload timeouts fail the run as well. -/
  strict : Option Bool := some false

/-- Settings an engine can run with. -/
structure Config where
  axiWidth : AxiWidth := .w64
  preloadTimeout : TimeBound := .whole 1000000
  preloadTimeoutUnit : Option String := some "ns"
  preloadPolicy : PreloadPolicy := .lastWins
  pollInterval : Nat := 10
  maxPolls : Nat := 1000
  strict : Bool := false

/-- As much of a text that is no integer as its diagnostic shows. -/
def shownLimit : Nat := 200

/-- Why settings are refused. -/
inductive SettingsFault
  | unsupportedWidth (bits : Option Int)
  | timeoutNotPositive (bound : TimeBound)
  | unknownPolicy (name : Option String)
  | negativeInterval (cycles : Int)
  | noPolls (limit : Int)
  /-- The text of a variable is no integer. -/
  | notInteger (text : String)
  /-- The text of a variable is an integer of too many digits. -/
  | integerTooLong (digits : Nat)
  /-- The text of a variable is no number. -/
  | notNumber (text : String)
  /-- A preload coordinator is asked for a policy that it does not know. -/
  | unknownCoordinatorPolicy (name : String)
  /-- An integer bound on time is beyond every double. -/
  | hugeTimeout (bound : Int)
  /-- There is no bound on time. -/
  | noTimeout
  /-- A count is nothing. -/
  | noCount

/-- The families of faults of settings. -/
inductive SettingsFaultKind
  /-- A value is not supported, or a text spells no value. -/
  | unsupported
  /-- A number is beyond every double. -/
  | overflow
  /-- Nothing stands in place of a number. -/
  | mistyped
  deriving DecidableEq, Repr

def SettingsFault.kind : SettingsFault → SettingsFaultKind
  | .hugeTimeout _ => .overflow
  | .noTimeout | .noCount => .mistyped
  | _ => .unsupported

/-- A setting as messages show it. -/
def shownSetting (setting : Option String) : String :=
  setting.getD "None"

def SettingsFault.message : SettingsFault → String
  | .unsupportedWidth bits =>
    let shown := shownSetting (bits.map toString)
    s!"unsupported AXI data width {shown} (expected one of (64, 128))"
  | .timeoutNotPositive bound => s!"preload timeout must be positive, got {bound.text}"
  | .unknownPolicy name =>
    s!"unknown preload timeout policy '{shownSetting name}' "
      ++ "(expected one of ('last-wins', 'abort'))"
  | .negativeInterval cycles => s!"poll interval must not be negative, got {cycles}"
  | .noPolls limit => s!"max polls must be at least 1, got {limit}"
  | .notInteger text =>
    "bad STIM_* setting: invalid literal for int() with base 10: "
      ++ Text.quotedUpTo shownLimit text
  | .integerTooLong digits => s!"bad STIM_* setting: {Number.tooManyDigits digits}"
  | .notNumber text =>
    s!"bad STIM_* setting: could not convert string to float: {Text.quoted text}"
  | .unknownCoordinatorPolicy name => s!"unknown preload timeout policy '{name}'"
  | .hugeTimeout _ => "int too large to convert to float"
  | .noTimeout => "must be real number, not NoneType"
  | .noCount => "'<' not supported between instances of 'NoneType' and 'int'"

/-- The configuration of settings that an engine supports. -/
def Settings.validate (settings : Settings) : Except SettingsFault Config := do
  let some axiWidth := settings.axiWidth.bind AxiWidth.ofBits?
    | throw (.unsupportedWidth settings.axiWidth)
  let preloadTimeout := settings.preloadTimeout
  if preloadTimeout.isUnlimited then throw .noTimeout
  if let some bound := preloadTimeout.huge? then throw (.hugeTimeout bound)
  if !preloadTimeout.isPositive then throw (.timeoutNotPositive preloadTimeout)
  let some preloadPolicy := settings.preloadPolicy.bind PreloadPolicy.ofName?
    | throw (.unknownPolicy settings.preloadPolicy)
  let some pollInterval := settings.pollInterval | throw .noCount
  if pollInterval < 0 then throw (.negativeInterval pollInterval)
  let some maxPolls := settings.maxPolls | throw .noCount
  if maxPolls < 1 then throw (.noPolls maxPolls)
  return {
    axiWidth, preloadTimeout, preloadPolicy
    preloadTimeoutUnit := settings.preloadTimeoutUnit
    pollInterval := pollInterval.toNat
    maxPolls := maxPolls.toNat
    strict := settings.strict.getD false }

/-! ## Environments -/

/-- The variables of an environment. -/
abbrev Environment := String → Option String

/-- Settings that win over an environment, where they are given; one may be given as nothing. -/
structure Overrides where
  axiWidth : Option (Option Int) := none
  preloadTimeout : Option TimeBound := none
  preloadTimeoutUnit : Option (Option String) := none
  preloadPolicy : Option (Option String) := none
  pollInterval : Option (Option Int) := none
  maxPolls : Option (Option Int) := none
  strict : Option (Option Bool) := none

/-- An integer variable. -/
def integerVariable (env : Environment) (name : String) :
    Except SettingsFault (Option Int) :=
  match env name with
  | none => .ok none
  | some text => match Number.readInteger .ten text with
    | .ok n => .ok (some n)
    | .error .malformed => .error (.notInteger text)
    | .error (.tooLong digits) => .error (.integerTooLong digits)

/-- A variable that holds a number. -/
def numberVariable (env : Environment) (name : String) :
    Except SettingsFault (Option TimeBound) :=
  match env name with
  | none => .ok none
  | some text => match Number.Decimal.read? text with
    | some x => .ok (some (.real x))
    | none => .error (.notNumber text)

/-- A variable that switches something on with `1`, `true`, `yes` or `on`, in any letters. -/
def switchVariable (env : Environment) (name : String) : Option Bool :=
  (env name).map fun text =>
    let word := (Text.trim Text.isBlank text.toList).map Text.small
    ["1", "true", "yes", "on"].any (·.toList == word)

/-- A setting as it was overridden, else as its variable says, else its default. -/
def settle {α : Type} (override : Option (Option α)) (ofVariable otherwise : Option α) :
    Option α :=
  override.getD (ofVariable.or otherwise)

/-- The settings of an environment's `STIM_` variables under overrides. Every variable is read, an
overridden one as well. -/
def Settings.ofEnvironment (env : Environment) (overrides : Overrides) :
    Except SettingsFault Settings := do
  let axiWidth ← integerVariable env "STIM_AXI_WIDTH"
  let preloadTimeout ← numberVariable env "STIM_PRELOAD_TIMEOUT"
  let pollInterval ← integerVariable env "STIM_POLL_INTERVAL"
  let maxPolls ← integerVariable env "STIM_MAX_POLLS"
  let unit := env "STIM_PRELOAD_TIMEOUT_UNIT"
  let policy := env "STIM_PRELOAD_POLICY"
  let strict := switchVariable env "STIM_STRICT"
  let base : Settings := {}
  return {
    axiWidth := settle overrides.axiWidth axiWidth base.axiWidth
    preloadTimeout := overrides.preloadTimeout.getD (preloadTimeout.getD base.preloadTimeout)
    preloadTimeoutUnit := settle overrides.preloadTimeoutUnit unit base.preloadTimeoutUnit
    preloadPolicy := settle overrides.preloadPolicy policy base.preloadPolicy
    pollInterval := settle overrides.pollInterval pollInterval base.pollInterval
    maxPolls := settle overrides.maxPolls maxPolls base.maxPolls
    strict := settle overrides.strict strict base.strict }

/-- The configuration of an environment under overrides. -/
def Config.ofEnvironment (env : Environment) (overrides : Overrides) :
    Except SettingsFault Config := do
  (← Settings.ofEnvironment env overrides).validate

end BusScript
