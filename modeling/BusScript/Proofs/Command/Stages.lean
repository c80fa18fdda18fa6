import BusScript.Proofs.Command.Resolving

/-!
# Forms as sequences of steps

Three forms decide on the way how they go on: a burst write on either bus and a poll. Here each
decision is a step of its own, and the form is the plain sequence of its steps.
-/

namespace BusScript.Grammar

/-! ## Burst writes -/

/-- The address and the tokens behind it, of which there is at least one. -/
def addressAndMore (command : Command) : Resolving (String × List String) :=
  match command.arguments with
  | first :: second :: rest => pure (first, second :: rest)
  | _ => refuse (.tooFewArguments command.form 2)

/-- The data words of a burst, of which there is at least one. -/
def burstData (tokens : List String) (width : Nat) : Resolving (List Int) :=
  if tokens.isEmpty then refuse .missingData else words tokens width

/-- An AHB burst of a fixed beat count has that count of data. -/
def checkBeats (kind : AhbBurst) (given : Nat) : Resolving Unit :=
  match kind.beats? with
  | some needed =>
    if given ≠ needed then refuse (.beatMismatch (.ahbWrite kind needed given)) else pure ()
  | none => pure ()

theorem ahbBurstWrite_eq {command : Command} :
    ahbBurstWrite command = do
      let (target, rest) ← addressAndMore command
      let parameters := takeFront (Rule.table .ahb) rest
      let kind := ahbKind parameters .incr
      let data ← burstData parameters.remainder ahbWidth
      checkBeats kind data.length
      let address ← address target
      return {
        operation := .burstWrite, address, width := ahbWidth
        burst := .ahb kind
        size := some (ahbSize parameters)
        length := data.length - 1
        payload := some (.beats data)
        line := command.line } := by
  unfold ahbBurstWrite addressAndMore burstData
  rcases command.arguments with - | ⟨first, - | ⟨second, rest⟩⟩
  · rfl
  · rfl
  · simp only [pure_bind, if_refuse_bind, refuse_bind]
    split
    · rfl
    · refine congrArg _ (funext fun data => ?_)
      unfold checkBeats
      cases (ahbKind (takeFront (Rule.table .ahb) (second :: rest)) .incr).beats? with
      | none => rfl
      | some needed => simp only [if_refuse_bind, pure_bind]

/-- The length of an AXI burst write: the one that is given, which has to fit the data, or that of
the data. -/
def dataLength (given : Option String) (count : Nat) : Resolving Nat :=
  match given with
  | some token => do
    let length ← axiLength token
    if count ≠ length + 1 then refuse (.beatMismatch (.axiWrite length count)) else pure length
  | none => if 256 < count then refuse .burstTooLong else pure (count - 1)

variable {grammar : Grammar}

theorem axiBurstWrite_eq {command : Command} :
    axiBurstWrite grammar command = do
      let (target, rest) ← addressAndMore command
      let parameters := takeFront (Rule.table .axi) rest
      let kind := axiKind parameters
      let data ← burstData parameters.remainder grammar.axiWidth.bits
      let length ← dataLength (parameters.field? "length") data.length
      checkGeometry command.form kind length
      let address ← address target
      return {
        operation := .burstWrite, address, width := grammar.axiWidth.bits
        burst := .axi kind, length
        payload := some (.beats data)
        line := command.line } := by
  unfold axiBurstWrite addressAndMore burstData
  rcases command.arguments with - | ⟨first, - | ⟨second, rest⟩⟩
  · rfl
  · rfl
  · simp only [pure_bind, if_refuse_bind, refuse_bind]
    split
    · rfl
    · refine congrArg _ (funext fun data => ?_)
      unfold dataLength
      cases (takeFront (Rule.table .axi) (second :: rest)).field? "length" with
      | none => simp only [if_refuse_bind, pure_bind]
      | some token => simp only [bind_assoc, if_refuse_bind, pure_bind]

/-! ## Polls -/

/-- The mask of a poll: its third argument, or all bits. -/
def pollMask (grammar : Grammar) (bus : Bus) (given : Option String) : Resolving Int :=
  match given with
  | some token => word token (grammar.width bus)
  | none => pure (Int.pow 2 (grammar.width bus) - 1)

/-- The limit of a poll: its fourth argument, which is not to be zero, or that of the grammar. -/
def pollLimit (grammar : Grammar) (given : Option String) : Resolving (Option Int) :=
  match given with
  | some token => do
    let limit ← parseCount token "poll limit" none
    if limit = 0 then refuse (.zeroPolls token) else pure (some (limit : Int))
  | none => pure grammar.maxPolls

theorem poll_eq {bus : Bus} {command : Command} :
    grammar.poll bus command = do
      let (target, value, rest) ← twoArguments command
      if let some extra := rest[2]? then refuse (.tooManyTokens extra)
      let mask ← pollMask grammar bus rest[0]?
      let maxPolls ← pollLimit grammar rest[1]?
      let address ← address target
      let expected ← word value (grammar.width bus)
      return {
        bus, address, expected, mask, maxPolls
        width := grammar.width bus, line := command.line } := by
  unfold poll pollMask pollLimit
  refine congrArg _ (funext fun (target, value, rest) => ?_)
  dsimp only
  cases rest[2]? with
  | some extra => rfl
  | none =>
    cases rest[0]? with
    | none =>
      cases rest[1]? with
      | none => rfl
      | some token => simp only [bind_assoc, if_refuse_bind, refuse_bind, pure_bind]
    | some mask =>
      cases rest[1]? with
      | none => rfl
      | some token => simp only [bind_assoc, if_refuse_bind, refuse_bind, pure_bind]

end BusScript.Grammar
