import BusScript.Config
import BusScript.Files.Tree

/-!
# Options

How the words of a command line are told apart. A word that starts with a hyphen and goes on is an
option: a long one by its name, perhaps with its value behind `=`, or short ones by their letters,
of which the last may have its value behind it. An option that takes a value and brings none takes
the next word. Two hyphens alone end the options.
-/

namespace BusScript.CommandLine

/-- An option that a command knows. -/
structure OptionRule where
  /-- The long name, hyphens included. -/
  long : String
  short : Option Char := none
  takesValue : Bool := false
  deriving DecidableEq, Repr

/-- Why a command line is refused. -/
inductive UsageFault
  | unknownOption (name : String)
  | missingValue (option : String)
  /-- A value for an option that takes none. -/
  | superfluousValue (option : String)
  | missingCommand
  | unknownCommand (name : String)
  | missingScript
  | extraArguments (arguments : List String)
  | badValue (option value : String)
  | noFile (path : String)
  | isDirectory (path : String)
  /-- A path holds a NUL, which no file has in its name. -/
  | nul
  | settings (fault : SettingsFault)

def UsageFault.message : UsageFault → String
  | .unknownOption name => s!"no such option: {name}"
  | .missingValue option => s!"option {option} needs a value"
  | .superfluousValue option => s!"option {option} takes no value"
  | .missingCommand => "missing command"
  | .unknownCommand name => s!"no such command: {name}"
  | .missingScript => "missing script"
  | .extraArguments arguments =>
    s!"unexpected extra arguments: " ++ " ".intercalate arguments
  | .badValue option value => s!"bad value for {option}: {value}"
  | .noFile path => s!"file {path} does not exist"
  | .isDirectory path => s!"{path} is a directory"
  | .nul => OpenFault.nul.message ""
  | .settings fault => fault.message

/-- Options with their values, in the order given, and the other words. -/
structure Given where
  options : List (String × String) := []
  arguments : List String := []
  deriving DecidableEq, Repr

/-- What one word gives: options with their values, and perhaps an option whose value is still to
come. -/
structure OptionWord where
  options : List (String × String) := []
  waiting : Option String := none
  deriving DecidableEq, Repr

/-- Short options by their letters. -/
def readShort (rules : List OptionRule) : List Char → Except UsageFault OptionWord
  | [] => .ok {}
  | letter :: rest =>
    match rules.find? (·.short == some letter) with
    | none => .error (.unknownOption (String.ofList ['-', letter]))
    | some rule =>
      if !rule.takesValue then
        (readShort rules rest).map fun word =>
          { word with options := (rule.long, "") :: word.options }
      else if rest.isEmpty then .ok { waiting := some rule.long }
      else .ok { options := [(rule.long, String.ofList rest)] }

/-- A word that starts with a hyphen. -/
def readOption (rules : List OptionRule) (word : String) : Except UsageFault OptionWord :=
  let name := String.ofList (word.toList.takeWhile (· != '='))
  let value : Option String := match word.toList.dropWhile (· != '=') with
    | [] => none
    | _ :: value => some (String.ofList value)
  match rules.find? (·.long == name), value with
  | some rule, some value =>
    if rule.takesValue then .ok { options := [(rule.long, value)] }
    else .error (.superfluousValue rule.long)
  | some rule, none =>
    if rule.takesValue then .ok { waiting := some rule.long }
    else .ok { options := [(rule.long, "")] }
  | none, _ =>
    match word.toList with
    | '-' :: '-' :: _ => .error (.unknownOption name)
    | _ :: letters => readShort rules letters
    | [] => .ok {}

/-- A word is an option if it starts with a hyphen and goes on. -/
def isOption (word : String) : Bool :=
  match word.toList with
  | '-' :: _ :: _ => true
  | _ => false

/-- Read words. Where options may stand between arguments, all words are looked at; otherwise the
first argument ends the options. -/
def readWords (rules : List OptionRule) (mixed : Bool) : List String → Except UsageFault Given
  | [] => .ok {}
  | word :: rest =>
    if word = "--" then .ok { arguments := rest }
    else if isOption word then do
      let read ← readOption rules word
      match read.waiting, rest with
      | none, rest => do
        let given ← readWords rules mixed rest
        return { given with options := read.options ++ given.options }
      | some option, value :: rest => do
        let given ← readWords rules mixed rest
        return { given with options := read.options ++ (option, value) :: given.options }
      | some option, [] => throw (.missingValue option)
    else if mixed then
      (readWords rules mixed rest).map fun given =>
        { given with arguments := word :: given.arguments }
    else .ok { arguments := word :: rest }

namespace Given

/-- The value of an option; the last one given counts. -/
def value? (given : Given) (option : String) : Option String :=
  given.options.reverse.lookup option

/-- An option was given. -/
def has (given : Given) (option : String) : Bool :=
  (given.value? option).isSome

/-- The options in the order in which each was first given, with the values that count. -/
def settled (given : Given) : List (String × String) :=
  (given.options.map Prod.fst).eraseDups.map fun option =>
    (option, (given.value? option).getD "")

end Given

end BusScript.CommandLine
