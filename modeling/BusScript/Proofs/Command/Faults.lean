import BusScript.Proofs.Command.Letters
import BusScript.Proofs.Command.WellFormed

/-!
# Errors that a grammar finds

What a grammar holds against a line is known before anything is carried out: it refuses the line
(`refusal?`), or it makes of it a read that cannot be compared with the beats expected of it
(`unscored`). The error of a refusal names the line, whatever is wrong with it
(`line_and_told_of_parse`). The read limit of the grammar stands in where a poll states none and has
no part in anything else, so two grammars of one width hold the same against each line
(`parse_unlimited`).
-/

namespace BusScript

/-- The action without the read limit of a poll. -/
def Action.unlimited : Action → Action
  | .poll p => .poll { p with maxPolls := none }
  | action => action

namespace Grammar

variable {α β : Type} {grammar other : Grammar}

/-! ## The line of an error -/

/-- What takes the same course as anything else is refused for a cause alone, if it is refused: the
line is not known yet. -/
theorem Alike.exists_cause {R : α → β → Prop} {x : Resolving α} {y : Resolving β}
    (alike : Alike R x y) {error : ScriptError} (refused : x = .error (.script error)) :
    ∃ cause, error = { cause } := by
  cases alike with
  | ok related => cases refused
  | refused kind =>
    cases refused
    exact ⟨_, rfl⟩
  | tooLong digits => cases refused

theorem exists_cause_of_action {command : Command} {error : ScriptError}
    (refused : grammar.action command = .error (.script error)) : ∃ cause, error = { cause } := by
  by_cases form : command.form = .preload
  · unfold action at refused
    rw [form] at refused
    have refused := map_eq_error_iff.mp refused
    unfold preload at refused
    split at refused
    · cases refused
    · cases refused
      exact ⟨_, rfl⟩
  · exact (alike_action grammar form).exists_cause refused

/-- An error of a line carries the number of the line, and its message is that of its cause on that
line, whether the line was known from the first or came to be known later. -/
theorem line_and_told_of_parse {text : String} {line : Option Int} {error : ScriptError}
    (refused : grammar.parse text line = .error (.script error)) :
    error.line = line ∧ error.Told := by
  unfold parse at refused
  split at refused
  · rename_i command made
    rw [← line_of_ofTokens made]
    unfold resolve at refused
    cases failed : grammar.action command with
    | ok action =>
      rw [failed] at refused
      cases refused
    | error fault =>
      rw [failed] at refused
      cases fault with
      | script found =>
        obtain ⟨cause, rfl⟩ := exists_cause_of_action failed
        cases refused
        have told : ScriptError.Told { cause } := rfl
        exact ⟨rfl, told.atLine command.line⟩
      | countTooLong digits => cases refused
  · rename_i found made
    cases refused
    unfold Command.ofTokens at made
    split at made
    · cases made
    · cases made
      exact ⟨rfl, rfl⟩

/-! ## The read limit -/

theorem poll_unlimited (same : grammar.axiWidth = other.axiWidth) (bus : Bus) (command : Command) :
    (fun p => Action.unlimited (.poll p)) <$> grammar.poll bus command =
      (fun p => Action.unlimited (.poll p)) <$> other.poll bus command := by
  obtain ⟨width, limit⟩ := grammar
  obtain ⟨_, otherLimit⟩ := other
  cases same
  rw [poll_eq, poll_eq, map_bind, map_bind]
  refine bind_congr fun (target, value, rest) => ?_
  dsimp only
  cases rest[2]? with
  | some extra => rfl
  | none =>
    cases rest[1]? with
    | some token => rfl
    | none =>
      simp only [pollLimit, map_bind]
      rfl

theorem action_unlimited (same : grammar.axiWidth = other.axiWidth) (command : Command) :
    Action.unlimited <$> grammar.action command = Action.unlimited <$> other.action command := by
  unfold action
  rcases command.form with ⟨bus, operation⟩ | - | -
  · cases operation with
    | poll =>
      cases bus with
      | ahb =>
        rw [Functor.map_map, Functor.map_map]
        exact poll_unlimited same .ahb command
      | axi =>
        rw [Functor.map_map, Functor.map_map]
        exact poll_unlimited same .axi command
    | _ =>
      obtain ⟨width, limit⟩ := grammar
      obtain ⟨_, otherLimit⟩ := other
      cases same
      cases bus <;> rfl
  · rfl
  · rfl

/-- Grammars of one width give a line the same action but for the read limit, or refuse it with the
same fault. -/
theorem parse_unlimited (same : grammar.axiWidth = other.axiWidth) (text : String)
    (line : Option Int) :
    Action.unlimited <$> grammar.parse text line = Action.unlimited <$> other.parse text line := by
  unfold parse
  cases Command.ofTokens (tokenize text) line with
  | error error => rfl
  | ok command =>
    have agree := action_unlimited same command
    dsimp only
    unfold resolve
    cases here : grammar.action command with
    | ok action =>
      rw [here] at agree
      obtain ⟨found, there, equal⟩ := map_eq_ok_iff.mp agree.symm
      rw [there]
      exact congrArg Except.ok equal.symm
    | error fault =>
      rw [here] at agree
      rw [map_eq_error_iff.mp agree.symm]

theorem parse_eq_error_iff_of_axiWidth (same : grammar.axiWidth = other.axiWidth) {text : String}
    {line : Option Int} {fault : CommandFault} :
    grammar.parse text line = .error fault ↔ other.parse text line = .error fault := by
  rw [← map_eq_error_iff, parse_unlimited same, map_eq_error_iff]

/-! ## What a grammar holds against a line -/

/-- The error that a numbered line is refused with. -/
def refusal? (grammar : Grammar) (line : Nat × String) : Option ScriptError :=
  match grammar.parse line.2 (some line.1) with
  | .error (.script error) => some error
  | _ => none

/-- A numbered line asks for a read that cannot be compared with the beats expected of it. -/
def unscored (grammar : Grammar) (line : Nat × String) : Bool :=
  match grammar.parse line.2 (some line.1) with
  | .ok (.transaction t) => t.mismatch.isSome
  | _ => false

section

variable {number : Nat} {text : String}

theorem refusal?_eq_some_iff {error : ScriptError} :
    grammar.refusal? (number, text) = some error ↔
      grammar.parse text (some number) = .error (.script error) := by
  unfold refusal?
  dsimp only
  split
  · rename_i found refused
    simp [refused]
  · rename_i other
    constructor
    · intro equal
      cases equal
    · intro refused
      exact absurd refused (other error)

theorem unscored_iff :
    grammar.unscored (number, text) = true ↔
      ∃ t, grammar.parse text (some number) = .ok (.transaction t) ∧ t.mismatch.isSome := by
  unfold unscored
  dsimp only
  split
  · rename_i t parsed
    simp [parsed]
  · rename_i other
    constructor
    · intro equal
      cases equal
    · rintro ⟨t, parsed, -⟩
      exact absurd parsed (other t)

theorem unscored_eq_false_of_refusal? (refused : (grammar.refusal? (number, text)).isSome) :
    grammar.unscored (number, text) = false := by
  obtain ⟨error, refused⟩ := Option.isSome_iff_exists.mp refused
  unfold unscored
  rw [refusal?_eq_some_iff.mp refused]

end

theorem refusal?_of_axiWidth (same : grammar.axiWidth = other.axiWidth) :
    grammar.refusal? = other.refusal? := by
  funext ⟨number, text⟩
  refine Option.ext fun error => ?_
  rw [refusal?_eq_some_iff, refusal?_eq_some_iff, parse_eq_error_iff_of_axiWidth same]

end Grammar

end BusScript
