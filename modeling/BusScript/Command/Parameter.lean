import BusScript.Command.Keyword

/-!
# Optional parameters

Optional parameters share token positions with data, so they are told apart by what they look like.
A table of rules gives the parameters of a form in order. Where data may follow, each rule in turn
takes the front token if it accepts it, and what no rule takes is the data. Where nothing may
follow, each token has to be accepted by the rule at its place.
-/

namespace BusScript

/-- A recogniser of one optional parameter. -/
structure Rule where
  name : String
  /-- What the parameter sets. -/
  field : String
  accepts : String → Bool

/-- What a table of rules makes of some tokens. -/
structure Parameters where
  /-- The accepted tokens under their fields. -/
  fields : List (String × String) := []
  /-- The tokens that no rule took. -/
  remainder : List String := []
  /-- The names of the rules that took a token. -/
  applied : List String := []
  deriving DecidableEq, Repr

/-- The parameters with one more, taken before the others. -/
def Parameters.take (rule : Rule) (token : String) (rest : Parameters) : Parameters :=
  { rest with
    fields := (rule.field, token) :: rest.fields
    applied := rule.name :: rest.applied }

/-- The token of a field. -/
def Parameters.field? (parameters : Parameters) (field : String) : Option String :=
  parameters.fields.lookup field

/-- Each rule takes the front token if it accepts it; the tokens left over are the remainder. -/
def takeFront : List Rule → List String → Parameters
  | [], tokens => { remainder := tokens }
  | _ :: _, [] => {}
  | rule :: rules, token :: tokens =>
    if rule.accepts token then (takeFront rules tokens).take rule token
    else takeFront rules (token :: tokens)

/-- Each token is accepted by the rule at its place, and there are no more tokens than rules. -/
def takeAll : List Rule → List String → Except Cause Parameters
  | _, [] => .ok {}
  | [], token :: _ => .error (.tooManyTokens token)
  | rule :: rules, token :: tokens =>
    if rule.accepts token then (takeAll rules tokens).map (·.take rule token)
    else .error (.parameterExpected rule.name token)

/-! ## The tables -/

def ahbBurst? (token : String) : Option AhbBurst := named? AhbBurst.all AhbBurst.name token

def ahbSize? (token : String) : Option AhbSize := named? AhbSize.all AhbSize.name token

def axiBurst? (token : String) : Option AxiBurst := named? AxiBurst.all AxiBurst.name token

/-- A token of at most three characters that starts with a decimal digit reads as an AXI burst
length, whatever follows the digit. -/
def looksLikeLength (token : String) : Bool :=
  match token.toList with
  | [] => false
  | c :: rest => c.isDigit && rest.length ≤ 2

namespace Rule

def ahbBurst : Rule := ⟨"burst-keyword", "burst", fun token => (ahbBurst? token).isSome⟩

def ahbSize : Rule := ⟨"size-keyword", "size", fun token => (ahbSize? token).isSome⟩

def axiBurst : Rule := ⟨"burst-keyword", "burst", fun token => (axiBurst? token).isSome⟩

def axiLength : Rule := ⟨"length-token", "length", looksLikeLength⟩

/-- The optional parameters of the forms of a bus. -/
def table : Bus → List Rule
  | .ahb => [ahbBurst, ahbSize]
  | .axi => [axiBurst, axiLength]

end Rule

end BusScript
