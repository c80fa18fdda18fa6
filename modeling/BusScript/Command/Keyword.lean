import BusScript.Command.Error
import BusScript.Text.Capital

/-!
# Keywords

The first one or two tokens of a line name the form of the command, in letters of either case. How
many arguments follow is not looked at here.
-/

namespace BusScript

/-- The member of a list whose name a token spells, in letters of either case. -/
def named? {α : Type} (all : List α) (name : α → String) (token : String) : Option α :=
  all.find? fun a => (name a).toList == Text.capitalize token.toList

/-- A line whose form is known. -/
structure Command where
  form : Form
  /-- All tokens, keywords included. -/
  tokens : List String
  line : Option Int := none
  deriving DecidableEq, Repr

/-- The tokens after the keywords. -/
def Command.arguments (command : Command) : List String :=
  command.tokens.drop (if command.form.operation?.isNone then 1 else 2)

/-- The form that the tokens' keywords name. -/
def Form.ofTokens : List String → Except Cause Form
  | [] => .error .emptyCommand
  | first :: rest => match named? Protocol.all Protocol.name first with
    | none => .error (.unknownProtocol first)
    | some .wait => .ok .wait
    | some .preload => .ok .preload
    | some (.bus bus) => match rest with
      | [] => .error (.missingOperation first)
      | second :: _ => match named? Operation.all Operation.name second with
        | none => .error (.unknownOperation second)
        | some operation => .ok (.onBus bus operation)

/-- The command that tokens make. -/
def Command.ofTokens (tokens : List String) (line : Option Int) : Except ScriptError Command :=
  match Form.ofTokens tokens with
  | .ok form => .ok { form, tokens, line }
  | .error cause => .error { cause, line }

end BusScript
