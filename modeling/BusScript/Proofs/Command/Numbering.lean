import BusScript.Proofs.Command.Faults

/-!
# Line numbers have no part in what lines ask for

A grammar hands the number of a line on and looks at it nowhere. So the same text under another
number asks for the same action, or is refused for the same cause; nothing but the number changes
(`parse_mapLine`).
-/

namespace BusScript

/-! ## Other numbers -/

variable (renumber : Option Int → Option Int)

def Command.mapLine (command : Command) : Command :=
  { command with line := renumber command.line }

def Transaction.mapLine (t : Transaction) : Transaction :=
  { t with line := renumber t.line }

def Poll.mapLine (p : Poll) : Poll :=
  { p with line := renumber p.line }

def Wait.mapLine (w : Wait) : Wait :=
  { w with line := renumber w.line }

def Preload.mapLine (p : Preload) : Preload :=
  { p with line := renumber p.line }

/-- The action under another line number. -/
def Action.mapLine : Action → Action
  | .transaction t => .transaction (t.mapLine renumber)
  | .poll p => .poll (p.mapLine renumber)
  | .wait w => .wait (w.mapLine renumber)
  | .preload p => .preload (p.mapLine renumber)

/-- The fault under another line number. -/
def CommandFault.mapLine : CommandFault → CommandFault
  | .script error => .script { cause := error.cause, line := renumber error.line }
  | .countTooLong digits => .countTooLong digits

namespace Grammar

/-! ## Commands -/

section

variable (command : Command)

theorem ahbWrite_mapLine :
    ahbWrite (command.mapLine renumber) = Transaction.mapLine renumber <$> ahbWrite command := by
  simp only [ahbWrite, map_bind]
  rfl

theorem ahbRead_mapLine :
    ahbRead (command.mapLine renumber) = Transaction.mapLine renumber <$> ahbRead command := by
  rw [ahbRead, ahbRead, map_bind]
  refine bind_congr fun found => ?_
  obtain ⟨target, rest⟩ := found
  dsimp only
  split
  · simp only [map_bind]
    rfl
  · simp only [map_bind]
    rfl
  · rfl

theorem ahbBurstWrite_mapLine :
    ahbBurstWrite (command.mapLine renumber) =
      Transaction.mapLine renumber <$> ahbBurstWrite command := by
  simp only [ahbBurstWrite_eq, map_bind]
  rfl

theorem ahbBurstRead_mapLine :
    ahbBurstRead (command.mapLine renumber) =
      Transaction.mapLine renumber <$> ahbBurstRead command := by
  simp only [ahbBurstRead, map_bind]
  rfl

variable (grammar : Grammar)

theorem axiWrite_mapLine :
    axiWrite grammar (command.mapLine renumber) =
      Transaction.mapLine renumber <$> axiWrite grammar command := by
  simp only [axiWrite, map_bind]
  rfl

theorem axiRead_mapLine (operation : Operation) :
    axiRead grammar operation (command.mapLine renumber) =
      Transaction.mapLine renumber <$> axiRead grammar operation command := by
  simp only [axiRead, map_bind]
  rfl

theorem axiBurstWrite_mapLine :
    axiBurstWrite grammar (command.mapLine renumber) =
      Transaction.mapLine renumber <$> axiBurstWrite grammar command := by
  simp only [axiBurstWrite_eq, map_bind]
  rfl

theorem poll_mapLine (bus : Bus) :
    grammar.poll bus (command.mapLine renumber) =
      Poll.mapLine renumber <$> grammar.poll bus command := by
  rw [poll_eq, poll_eq, map_bind]
  refine bind_congr fun (target, value, rest) => ?_
  dsimp only
  cases rest[2]? with
  | some extra => rfl
  | none =>
    simp only [map_bind]
    rfl

theorem wait_mapLine :
    wait (command.mapLine renumber) = Wait.mapLine renumber <$> wait command := by
  have same : (command.mapLine renumber).arguments = command.arguments := rfl
  unfold wait
  rw [same]
  rcases command.arguments with - | ⟨token, - | ⟨extra, rest⟩⟩
  · rfl
  · simp only [map_bind]
    rfl
  · rfl

theorem preload_mapLine :
    preload (command.mapLine renumber) = Preload.mapLine renumber <$> preload command := by
  have same : (command.mapLine renumber).arguments = command.arguments := rfl
  unfold preload
  rw [same]
  split
  · rfl
  · rfl

/-- A command under another line number asks for the same action under that number, and lacks the
same if it is refused. -/
theorem action_mapLine :
    grammar.action (command.mapLine renumber) =
      Action.mapLine renumber <$> grammar.action command := by
  have same : (command.mapLine renumber).form = command.form := rfl
  have lifted {α : Type} {make : α → Action} {move : α → α} {x y : Resolving α}
      (made : ∀ a, make (move a) = (make a).mapLine renumber) (moved : x = move <$> y) :
      make <$> x = Action.mapLine renumber <$> make <$> y := by
    rw [moved, Functor.map_map, Functor.map_map]
    exact congrArg (· <$> y) (funext made)
  unfold action
  rw [same]
  rcases command.form with ⟨bus, operation⟩ | - | -
  · cases operation with
    | write =>
      cases bus with
      | ahb => exact lifted (fun _ => rfl) (ahbWrite_mapLine renumber command)
      | axi => exact lifted (fun _ => rfl) (axiWrite_mapLine renumber command grammar)
    | read =>
      cases bus with
      | ahb => exact lifted (fun _ => rfl) (ahbRead_mapLine renumber command)
      | axi => exact lifted (fun _ => rfl) (axiRead_mapLine renumber command grammar .read)
    | burstWrite =>
      cases bus with
      | ahb => exact lifted (fun _ => rfl) (ahbBurstWrite_mapLine renumber command)
      | axi => exact lifted (fun _ => rfl) (axiBurstWrite_mapLine renumber command grammar)
    | burstRead =>
      cases bus with
      | ahb => exact lifted (fun _ => rfl) (ahbBurstRead_mapLine renumber command)
      | axi => exact lifted (fun _ => rfl) (axiRead_mapLine renumber command grammar .burstRead)
    | poll =>
      cases bus with
      | ahb => exact lifted (fun _ => rfl) (poll_mapLine renumber command grammar .ahb)
      | axi => exact lifted (fun _ => rfl) (poll_mapLine renumber command grammar .axi)
  · exact lifted (fun _ => rfl) (wait_mapLine renumber command)
  · exact lifted (fun _ => rfl) (preload_mapLine renumber command)

end

/-! ## Lines -/

variable {grammar : Grammar}

/-- What a line asks for, or is refused for, is the same under every number. -/
theorem parse_mapLine (text : String) (line : Option Int) :
    grammar.parse text (renumber line) =
      ((grammar.parse text line).map (Action.mapLine renumber)).mapError
        (CommandFault.mapLine renumber) := by
  unfold parse Command.ofTokens
  cases Form.ofTokens (tokenize text) with
  | error cause => rfl
  | ok form =>
    have moved := action_mapLine renumber ⟨form, tokenize text, line⟩ grammar
    rw [Command.mapLine] at moved
    dsimp only at moved ⊢
    unfold resolve
    rw [moved]
    cases found : grammar.action ⟨form, tokenize text, line⟩ with
    | ok action => rfl
    | error fault =>
      cases fault with
      | countTooLong digits => rfl
      | script error =>
        -- Only the last step of resolving names the line, so its number is the one handed in.
        obtain ⟨cause, rfl⟩ := exists_cause_of_action found
        rfl

end Grammar

end BusScript
