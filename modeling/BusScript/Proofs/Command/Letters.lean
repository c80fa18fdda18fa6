import Mathlib.Data.List.Basic
import BusScript.Proofs.Command.Stages
import BusScript.Proofs.Text.Letters

/-!
# Commands in letters of either case

A command and the same command in small letters are resolved to the same action or refused alike
(`alike_resolve`): their keywords name the same form, their parameters are told from data in the
same way and their numbers have the same values. `Alike` relates two steps of resolving that take
the same course, and is closed under sequencing. A preload is left out, since its path and file are
kept as they are written.
-/

namespace BusScript

open Text

/-- The command in small letters. -/
def Command.lower (command : Command) : Command :=
  { command with tokens := command.tokens.map Text.lower }

theorem Command.arguments_lower (command : Command) :
    command.lower.arguments = command.arguments.map Text.lower := by
  unfold arguments lower
  rw [List.map_drop]

/-! ## Parameters -/

namespace Parameters

/-- The parameters with every token in small letters. -/
def lower (parameters : Parameters) : Parameters where
  fields := parameters.fields.map fun (field, token) => (field, Text.lower token)
  remainder := parameters.remainder.map Text.lower
  applied := parameters.applied

theorem take_lower (parameters : Parameters) (rule : Rule) (token : String) :
    (parameters.take rule token).lower = parameters.lower.take rule (Text.lower token) := rfl

theorem field?_lower (parameters : Parameters) (field : String) :
    parameters.lower.field? field = (parameters.field? field).map Text.lower := by
  unfold field? lower
  dsimp only
  induction parameters.fields with
  | nil => rfl
  | cons entry rest ih =>
    rw [List.map_cons, List.lookup_cons, List.lookup_cons]
    cases field == entry.1 with
    | true => rfl
    | false => exact ih

end Parameters

/-- A rule that goes by more than the case of letters. -/
def Rule.Blind (rule : Rule) : Prop :=
  ∀ token, rule.accepts (Text.lower token) = rule.accepts token

theorem Rule.blind_of_table {bus : Bus} : ∀ rule ∈ Rule.table bus, rule.Blind := by
  intro rule member token
  cases bus with
  | ahb =>
    rcases List.mem_pair.mp member with rfl | rfl
    · simp only [ahbBurst, ahbBurst?, named?_lower]
    · simp only [ahbSize, ahbSize?, named?_lower]
  | axi =>
    rcases List.mem_pair.mp member with rfl | rfl
    · simp only [axiBurst, axiBurst?, named?_lower]
    · simp only [axiLength, looksLikeLength_lower]

theorem takeFront_lower {rules : List Rule} (blind : ∀ rule ∈ rules, rule.Blind)
    (tokens : List String) :
    takeFront rules (tokens.map Text.lower) = (takeFront rules tokens).lower := by
  fun_induction takeFront rules tokens with
  | case1 tokens =>
    cases tokens <;> rfl
  | case2 rule rules => rfl
  | case3 rule rules token tokens accepted ih =>
    have here := blind rule List.mem_cons_self token
    rw [List.map_cons, takeFront, here, if_pos accepted,
      ih fun other member => blind other (List.mem_cons_of_mem _ member), Parameters.take_lower]
  | case4 rule rules token tokens refused ih =>
    have here := blind rule List.mem_cons_self token
    rw [List.map_cons] at ih ⊢
    rw [takeFront, here, if_neg refused,
      ih fun other member => blind other (List.mem_cons_of_mem _ member)]

namespace Grammar

variable {α β γ δ : Type}

/-! ## Steps that take the same course -/

/-- Both steps succeed, with related values, or both fail: with script errors of one kind whose line
is not known yet, or at a count of so many digits. -/
inductive Alike (R : α → β → Prop) : Resolving α → Resolving β → Prop
  | ok {a : α} {b : β} : R a b → Alike R (.ok a) (.ok b)
  | refused {cause other : Cause} :
      cause.kind = other.kind → Alike R (.error (.ofCause cause)) (.error (.ofCause other))
  | tooLong (digits : Nat) :
      Alike R (.error (.countTooLong digits)) (.error (.countTooLong digits))

variable {R : α → β → Prop} {S : γ → δ → Prop}

theorem Alike.bind {x : Resolving α} {y : Resolving β} {f : α → Resolving γ} {g : β → Resolving δ}
    (first : Alike R x y) (later : ∀ a b, R a b → Alike S (f a) (g b)) :
    Alike S (x >>= f) (y >>= g) := by
  cases first with
  | ok related => exact later _ _ related
  | refused kind => exact .refused kind
  | tooLong digits => exact .tooLong digits

theorem Alike.map {x : Resolving α} {y : Resolving β} {f : α → γ} {g : β → δ}
    (first : Alike R x y) (later : ∀ a b, R a b → S (f a) (g b)) : Alike S (f <$> x) (g <$> y) := by
  cases first with
  | ok related => exact .ok (later _ _ related)
  | refused kind => exact .refused kind
  | tooLong digits => exact .tooLong digits

theorem alike_pure {a : α} {b : β} (related : R a b) : Alike R (pure a) (pure b) :=
  .ok related

theorem alike_refuse {cause other : Cause} (kind : cause.kind = other.kind) :
    Alike R (refuse cause) (refuse other) :=
  .refused kind

/-! ## Literals -/

theorem alike_word (token : String) (width : Nat) :
    Alike Eq (word token width) (word (lower token) width) := by
  unfold word parseUnsigned
  simp only [hexLiteralDigits_lower, ofHex?_small, List.isEmpty_map, List.length_map]
  split
  · exact .refused rfl
  · split
    · exact .refused rfl
    · cases Number.ofHex? (hexLiteralDigits token.toList) with
      | some value => exact .ok rfl
      | none => exact .refused rfl

theorem alike_words (tokens : List String) (width : Nat) :
    Alike Eq (words tokens width) (words (tokens.map lower) width) := by
  unfold words
  induction tokens with
  | nil => exact .ok rfl
  | cons token rest ih =>
    rw [List.map_cons, List.mapM_cons, List.mapM_cons]
    refine (alike_word token width).bind fun value _ same => ?_
    refine ih.bind fun values _ equal => ?_
    rw [same, equal]
    exact alike_pure rfl

/-- A text of digits is its own in small letters, and any other text is no count in either case. -/
theorem alike_parseCount (token what : String) (maximum : Option Int) :
    Alike Eq (parseCount token what maximum) (parseCount (lower token) what maximum) := by
  by_cases digits : token.toList.all Char.isDigit = true
  · rw [lower_of_isDigit digits]
    unfold parseCount
    dsimp only
    split
    · exact .refused rfl
    · split
      · exact .tooLong _
      · cases maximum with
        | none => exact .ok rfl
        | some most =>
          dsimp only
          split
          · exact .refused rfl
          · exact .ok rfl
  · have other : ¬(lower token).toList.all Char.isDigit = true := by rwa [isDigit_lower]
    unfold parseCount
    simp only [digits, other, Bool.not_false, Bool.or_true, if_true]
    exact .refused rfl

/-! ## Arguments -/

theorem alike_oneArgument (command : Command) :
    Alike (fun a b => b = (Text.lower a.1, a.2.map Text.lower)) (oneArgument command)
      (oneArgument command.lower) := by
  unfold oneArgument
  rw [Command.arguments_lower]
  rcases command.arguments with - | ⟨first, rest⟩
  · exact alike_refuse rfl
  · exact .ok rfl

theorem alike_twoArguments (command : Command) :
    Alike (fun a b => b = (Text.lower a.1, Text.lower a.2.1, a.2.2.map Text.lower))
      (twoArguments command) (twoArguments command.lower) := by
  unfold twoArguments
  rw [Command.arguments_lower]
  rcases command.arguments with - | ⟨first, - | ⟨second, rest⟩⟩
  · exact alike_refuse rfl
  · exact alike_refuse rfl
  · exact .ok rfl

theorem alike_addressAndMore (command : Command) :
    Alike (fun a b => b = (Text.lower a.1, a.2.map Text.lower)) (addressAndMore command)
      (addressAndMore command.lower) := by
  unfold addressAndMore
  rw [Command.arguments_lower]
  rcases command.arguments with - | ⟨first, - | ⟨second, rest⟩⟩
  · exact alike_refuse rfl
  · exact alike_refuse rfl
  · exact alike_pure rfl

/-! ## Parameters -/

theorem checked_map {x : Except Cause α} {f : α → γ} : checked (x.map f) = f <$> checked x := by
  cases x <;> rfl

theorem alike_takeAll {rules : List Rule} (blind : ∀ rule ∈ rules, rule.Blind)
    (tokens : List String) :
    Alike (fun a b => b = a.lower) (checked (takeAll rules tokens))
      (checked (takeAll rules (tokens.map Text.lower))) := by
  fun_induction takeAll rules tokens with
  | case1 rules => cases rules <;> exact .ok rfl
  | case2 token tokens => exact .refused rfl
  | case3 rule rules token tokens accepted ih =>
    have here := blind rule List.mem_cons_self token
    rw [List.map_cons, takeAll, here, if_pos accepted, checked_map, checked_map]
    refine (ih fun other member => blind other (List.mem_cons_of_mem _ member)).map ?_
    rintro parameters _ rfl
    rw [Parameters.take_lower]
  | case4 rule rules token tokens refused =>
    have here := blind rule List.mem_cons_self token
    rw [List.map_cons, takeAll, here, if_neg refused]
    exact .refused rfl

@[simp] theorem ahbKind_lower (parameters : Parameters) (otherwise : AhbBurst) :
    ahbKind parameters.lower otherwise = ahbKind parameters otherwise := by
  unfold ahbKind ahbBurst?
  rw [Parameters.field?_lower]
  cases parameters.field? "burst" <;> simp

@[simp] theorem ahbSize_lower (parameters : Parameters) :
    ahbSize parameters.lower = ahbSize parameters := by
  unfold ahbSize ahbSize?
  rw [Parameters.field?_lower]
  cases parameters.field? "size" <;> simp

@[simp] theorem axiKind_lower (parameters : Parameters) :
    axiKind parameters.lower = axiKind parameters := by
  unfold axiKind axiBurst?
  rw [Parameters.field?_lower]
  cases parameters.field? "burst" <;> simp

theorem alike_axiLengthOrOne (parameters : Parameters) :
    Alike Eq (axiLengthOrOne parameters) (axiLengthOrOne parameters.lower) := by
  unfold axiLengthOrOne
  rw [Parameters.field?_lower]
  cases parameters.field? "length" with
  | some token => exact alike_parseCount token _ _
  | none => exact .ok rfl

theorem alike_checkGeometry (form : Form) (kind : AxiBurst) (length : Nat) :
    Alike Eq (checkGeometry form kind length) (checkGeometry form kind length) := by
  unfold checkGeometry
  dsimp only
  split
  · exact alike_refuse rfl
  · split
    · exact alike_refuse rfl
    · exact .ok rfl

theorem alike_checkBeats (kind : AhbBurst) (given : Nat) :
    Alike Eq (checkBeats kind given) (checkBeats kind given) := by
  unfold checkBeats
  split
  · split
    · exact alike_refuse rfl
    · exact alike_pure rfl
  · exact alike_pure rfl

theorem alike_burstData (tokens : List String) (width : Nat) :
    Alike Eq (burstData tokens width) (burstData (tokens.map Text.lower) width) := by
  unfold burstData
  rw [List.isEmpty_map]
  split
  · exact alike_refuse rfl
  · exact alike_words tokens width

theorem alike_dataLength (parameters : Parameters) (count : Nat) :
    Alike Eq (dataLength (parameters.field? "length") count)
      (dataLength (parameters.lower.field? "length") count) := by
  rw [Parameters.field?_lower]
  unfold dataLength
  cases parameters.field? "length" with
  | some token =>
    refine (alike_parseCount token _ _).bind fun length _ same => ?_
    subst same
    split
    · exact alike_refuse rfl
    · exact alike_pure rfl
  | none =>
    dsimp only [Option.map]
    split
    · exact alike_refuse rfl
    · exact alike_pure rfl

/-! ## Transactions -/

theorem alike_ahbWrite (command : Command) :
    Alike Eq (ahbWrite command) (ahbWrite command.lower) := by
  unfold ahbWrite
  refine (alike_twoArguments command).bind ?_
  rintro ⟨target, data, rest⟩ _ rfl
  refine (alike_takeAll Rule.blind_of_table rest).bind ?_
  rintro parameters _ rfl
  refine (alike_word target _).bind ?_
  rintro address _ rfl
  refine (alike_word data _).bind ?_
  rintro payload _ rfl
  rw [ahbKind_lower, ahbSize_lower]
  exact alike_pure rfl

theorem alike_ahbRead (command : Command) :
    Alike Eq (ahbRead command) (ahbRead command.lower) := by
  unfold ahbRead
  refine (alike_oneArgument command).bind ?_
  rintro ⟨target, rest⟩ _ rfl
  dsimp only
  rw [takeFront_lower Rule.blind_of_table, ahbKind_lower, ahbSize_lower, Parameters.lower]
  dsimp only
  rcases (takeFront (Rule.table .ahb) rest).remainder with - | ⟨token, - | ⟨extra, more⟩⟩
  · refine (alike_word target _).bind ?_
    rintro address _ rfl
    exact alike_pure rfl
  · refine ((alike_word token _).map fun _ _ => congrArg some).bind ?_
    rintro expected _ rfl
    refine (alike_word target _).bind ?_
    rintro address _ rfl
    exact alike_pure rfl
  · exact .refused rfl

theorem alike_ahbBurstWrite (command : Command) :
    Alike Eq (ahbBurstWrite command) (ahbBurstWrite command.lower) := by
  rw [ahbBurstWrite_eq, ahbBurstWrite_eq]
  refine (alike_addressAndMore command).bind ?_
  rintro ⟨target, rest⟩ _ rfl
  dsimp only
  rw [takeFront_lower Rule.blind_of_table, ahbKind_lower, ahbSize_lower]
  refine (alike_burstData _ _).bind ?_
  rintro data _ rfl
  refine (alike_checkBeats _ _).bind ?_
  rintro _ _ -
  refine (alike_word target _).bind ?_
  rintro address _ rfl
  exact alike_pure rfl

theorem alike_ahbBurstRead (command : Command) :
    Alike Eq (ahbBurstRead command) (ahbBurstRead command.lower) := by
  unfold ahbBurstRead
  refine (alike_oneArgument command).bind ?_
  rintro ⟨target, rest⟩ _ rfl
  dsimp only
  rw [takeFront_lower Rule.blind_of_table, ahbKind_lower, ahbSize_lower]
  refine (alike_words _ _).bind ?_
  rintro expected _ rfl
  refine (alike_word target _).bind ?_
  rintro address _ rfl
  exact alike_pure rfl

variable (grammar : Grammar)

theorem alike_axiWrite (command : Command) :
    Alike Eq (axiWrite grammar command) (axiWrite grammar command.lower) := by
  unfold axiWrite
  refine (alike_twoArguments command).bind ?_
  rintro ⟨target, data, rest⟩ _ rfl
  refine (alike_takeAll Rule.blind_of_table rest).bind ?_
  rintro parameters _ rfl
  rw [axiKind_lower]
  refine (alike_axiLengthOrOne parameters).bind ?_
  rintro length _ rfl
  refine (alike_checkGeometry _ _ _).bind ?_
  rintro _ _ -
  refine (alike_word target _).bind ?_
  rintro address _ rfl
  refine (alike_word data _).bind ?_
  rintro payload _ rfl
  exact alike_pure rfl

theorem alike_axiRead (operation : Operation) (command : Command) :
    Alike Eq (axiRead grammar operation command) (axiRead grammar operation command.lower) := by
  unfold axiRead
  refine (alike_oneArgument command).bind ?_
  rintro ⟨target, rest⟩ _ rfl
  dsimp only
  rw [takeFront_lower Rule.blind_of_table, axiKind_lower]
  refine (alike_axiLengthOrOne _).bind ?_
  rintro length _ rfl
  refine (alike_checkGeometry _ _ _).bind ?_
  rintro _ _ -
  refine (alike_words _ _).bind ?_
  rintro expected _ rfl
  refine (alike_word target _).bind ?_
  rintro address _ rfl
  exact alike_pure rfl

theorem alike_axiBurstWrite (command : Command) :
    Alike Eq (axiBurstWrite grammar command) (axiBurstWrite grammar command.lower) := by
  rw [axiBurstWrite_eq, axiBurstWrite_eq]
  refine (alike_addressAndMore command).bind ?_
  rintro ⟨target, rest⟩ _ rfl
  dsimp only
  rw [takeFront_lower Rule.blind_of_table, axiKind_lower]
  refine (alike_burstData _ _).bind ?_
  rintro data _ rfl
  refine (alike_dataLength _ _).bind ?_
  rintro length _ rfl
  refine (alike_checkGeometry _ _ _).bind ?_
  rintro _ _ -
  refine (alike_word target _).bind ?_
  rintro address _ rfl
  exact alike_pure rfl

/-! ## Waits and polls -/

theorem alike_pollMask (bus : Bus) (given : Option String) :
    Alike Eq (pollMask grammar bus given) (pollMask grammar bus (given.map Text.lower)) := by
  cases given with
  | some token => exact alike_word token _
  | none => exact alike_pure rfl

theorem alike_pollLimit (given : Option String) :
    Alike Eq (pollLimit grammar given) (pollLimit grammar (given.map Text.lower)) := by
  cases given with
  | some token =>
    refine (alike_parseCount token _ _).bind ?_
    rintro limit _ rfl
    split
    · exact alike_refuse rfl
    · exact alike_pure rfl
  | none => exact alike_pure rfl

theorem alike_poll (bus : Bus) (command : Command) :
    Alike Eq (grammar.poll bus command) (grammar.poll bus command.lower) := by
  rw [poll_eq, poll_eq]
  refine (alike_twoArguments command).bind ?_
  rintro ⟨target, value, rest⟩ _ rfl
  dsimp only
  rw [List.getElem?_map, List.getElem?_map, List.getElem?_map]
  cases rest[2]? with
  | some extra => exact .refused rfl
  | none =>
    refine (alike_pollMask grammar bus rest[0]?).bind ?_
    rintro mask _ rfl
    refine (alike_pollLimit grammar rest[1]?).bind ?_
    rintro limit _ rfl
    refine (alike_word target _).bind ?_
    rintro address _ rfl
    refine (alike_word value _).bind ?_
    rintro expected _ rfl
    exact alike_pure rfl

theorem alike_wait (command : Command) : Alike Eq (wait command) (wait command.lower) := by
  unfold wait
  rw [Command.arguments_lower]
  rcases command.arguments with - | ⟨token, - | ⟨extra, rest⟩⟩
  · exact alike_pure rfl
  · refine (alike_parseCount token _ _).bind ?_
    rintro cycles _ rfl
    exact alike_pure rfl
  · exact alike_refuse rfl

/-! ## Commands -/

theorem alike_action {command : Command} (other : command.form ≠ .preload) :
    Alike Eq (grammar.action command) (grammar.action command.lower) := by
  have same : command.lower.form = command.form := rfl
  unfold action
  rw [same]
  rcases form : command.form with ⟨bus, operation⟩ | - | -
  · cases operation with
    | write =>
      cases bus with
      | ahb => exact (alike_ahbWrite command).map fun _ _ => congrArg Action.transaction
      | axi => exact (alike_axiWrite grammar command).map fun _ _ => congrArg Action.transaction
    | read =>
      cases bus with
      | ahb => exact (alike_ahbRead command).map fun _ _ => congrArg Action.transaction
      | axi => exact (alike_axiRead grammar _ command).map fun _ _ => congrArg Action.transaction
    | burstWrite =>
      cases bus with
      | ahb => exact (alike_ahbBurstWrite command).map fun _ _ => congrArg Action.transaction
      | axi =>
        exact (alike_axiBurstWrite grammar command).map fun _ _ => congrArg Action.transaction
    | burstRead =>
      cases bus with
      | ahb => exact (alike_ahbBurstRead command).map fun _ _ => congrArg Action.transaction
      | axi => exact (alike_axiRead grammar _ command).map fun _ _ => congrArg Action.transaction
    | poll =>
      cases bus with
      | ahb => exact (alike_poll grammar .ahb command).map fun _ _ => congrArg Action.poll
      | axi => exact (alike_poll grammar .axi command).map fun _ _ => congrArg Action.poll
  · exact (alike_wait command).map fun _ _ => congrArg Action.wait
  · exact absurd form other

/-! ## Lines -/

theorem ofTokens_lower {tokens : List String} {form : Form} :
    Form.ofTokens (tokens.map Text.lower) = .ok form ↔ Form.ofTokens tokens = .ok form := by
  rcases tokens with - | ⟨first, - | ⟨second, rest⟩⟩
  · rfl
  · simp only [Form.ofTokens, List.map_cons, List.map_nil, named?_lower]
    cases named? Protocol.all Protocol.name first with
    | none => simp
    | some protocol => cases protocol <;> simp
  · simp only [Form.ofTokens, List.map_cons, named?_lower]
    cases named? Protocol.all Protocol.name first with
    | none => simp
    | some protocol =>
      cases protocol with
      | bus bus => cases named? Operation.all Operation.name second <;> simp
      | _ => simp

/-- Alike steps succeed with the same values. -/
theorem Alike.eq_ok_iff {x y : Resolving α} (alike : Alike Eq x y) {a : α} :
    x = .ok a ↔ y = .ok a := by
  cases alike with
  | ok same => rw [same]
  | refused kind => simp
  | tooLong digits => simp

/-- Steps that take the course of a third one take the same course. -/
theorem Alike.join {x y z : Resolving α} (first : Alike Eq x z) (second : Alike Eq y z) :
    Alike Eq x y := by
  cases first with
  | ok same =>
    cases second with
    | ok equal => exact .ok (same.trans equal.symm)
  | refused kind =>
    generalize named : CommandFault.ofCause _ = fault at second
    cases second with
    | refused other =>
      cases named
      exact .refused (kind.trans other.symm)
    | tooLong digits => cases named
  | tooLong digits =>
    generalize named : CommandFault.countTooLong digits = fault at second
    cases second with
    | refused other => cases named
    | tooLong others => exact named ▸ .tooLong _

/-- Tokens in letters of either case ask for the same action or are refused alike. -/
theorem alike_of_sameLetters {form : Form} {tokens others : List String} {line : Option Int}
    (same : tokens.map Text.lower = others.map Text.lower) (other : form ≠ .preload) :
    Alike Eq (grammar.action ⟨form, tokens, line⟩) (grammar.action ⟨form, others, line⟩) := by
  have small (tokens : List String) : Alike Eq (grammar.action ⟨form, tokens, line⟩)
      (grammar.action ⟨form, tokens.map Text.lower, line⟩) := alike_action grammar other
  have here := small tokens
  rw [same] at here
  exact here.join (small others)

theorem action_eq_ok_iff_of_sameLetters {form : Form} {tokens others : List String}
    {line : Option Int} {action : Action} (same : tokens.map Text.lower = others.map Text.lower)
    (other : form ≠ .preload) :
    grammar.action ⟨form, tokens, line⟩ = .ok action ↔
      grammar.action ⟨form, others, line⟩ = .ok action :=
  (alike_of_sameLetters grammar same other).eq_ok_iff

end Grammar

end BusScript
