import BusScript.Proofs.Command.Literal
import BusScript.Proofs.Command.Parameter
import BusScript.Proofs.Command.Stages
import BusScript.Proofs.Text.Layout

/-!
# Which lines give no script error

A line gives an action or a script error, but for one case: it reaches a decimal count of more
digits than are read. Only the cycles of a wait and the limit of a poll are such counts, because an
AXI burst length has at most three characters. `Command.CountsTooLong` says of a command that it is
such a case, and `contained_parse_iff` that there is no other.
-/

namespace BusScript

/-- The command reaches a count of too many digits: it is a wait for one, or a poll whose fourth
argument is one and whose mask is a literal of the bus. -/
def Command.CountsTooLong (grammar : Grammar) (command : Command) : Prop :=
  (command.form = .wait ∧ ∃ count, command.arguments = [count] ∧ IsOverlong count) ∨
    ∃ bus target expected mask count, command.form = .onBus bus .poll ∧
      command.arguments = [target, expected, mask, count] ∧
      (∃ value, parseUnsigned mask (grammar.width bus) = .ok value) ∧ IsOverlong count

namespace Grammar

/-! ## Transactions -/

theorem contained_axiLength {token : String} (looks : looksLikeLength token = true) :
    Contained (axiLength token) := by
  intro digits equal
  obtain ⟨⟨-, long⟩, -⟩ := parseCount_eq_countTooLong_iff.mp equal
  have short := length_le_of_looksLikeLength looks
  have limit : Number.digitLimit = 4300 := rfl
  omega

theorem contained_axiLengthOrOne {parameters : Parameters}
    (taken : parameters.TakenBy (Rule.table .axi)) : Contained (axiLengthOrOne parameters) := by
  unfold axiLengthOrOne
  split
  · rename_i token given
    exact contained_axiLength (taken.looksLikeLength given)
  · exact contained_ok

theorem contained_ahbWrite {command : Command} : Contained (ahbWrite command) := by
  unfold ahbWrite
  refine contained_twoArguments.bind fun (target, data, rest) _ => ?_
  refine contained_checked.bind fun parameters _ => ?_
  refine contained_word.bind fun address _ => ?_
  exact contained_word.bind fun payload _ => contained_pure

theorem contained_ahbRead {command : Command} : Contained (ahbRead command) := by
  unfold ahbRead
  refine contained_oneArgument.bind fun (target, rest) _ => ?_
  dsimp only
  split
  · exact contained_word.bind fun address _ => contained_pure
  · refine Contained.bind ?_ fun expected _ => contained_word.bind fun address _ => contained_pure
    exact contained_map_iff.mpr contained_word
  · exact contained_refuse

theorem contained_addressAndMore {command : Command} : Contained (addressAndMore command) := by
  unfold addressAndMore
  split
  · exact contained_pure
  · exact contained_refuse

theorem contained_burstData {tokens : List String} {width : Nat} :
    Contained (burstData tokens width) := by
  unfold burstData
  split
  · exact contained_refuse
  · exact contained_words

theorem contained_checkBeats {kind : AhbBurst} {given : Nat} :
    Contained (checkBeats kind given) := by
  unfold checkBeats
  split
  · split
    · exact contained_refuse
    · exact contained_pure
  · exact contained_pure

theorem contained_ahbBurstWrite {command : Command} : Contained (ahbBurstWrite command) := by
  rw [ahbBurstWrite_eq]
  refine contained_addressAndMore.bind fun (target, rest) _ => ?_
  refine contained_burstData.bind fun data _ => ?_
  refine contained_checkBeats.bind fun _ _ => ?_
  exact contained_word.bind fun address _ => contained_pure

theorem contained_ahbBurstRead {command : Command} : Contained (ahbBurstRead command) := by
  unfold ahbBurstRead
  refine contained_oneArgument.bind fun (target, rest) _ => ?_
  refine contained_words.bind fun expected _ => ?_
  exact contained_word.bind fun address _ => contained_pure

variable {grammar : Grammar}

theorem contained_axiWrite {command : Command} : Contained (axiWrite grammar command) := by
  unfold axiWrite
  refine contained_twoArguments.bind fun (target, data, rest) _ => ?_
  refine contained_checked.bind fun parameters taken => ?_
  have source := takeAll_takenBy (checked_eq_ok_iff.mp taken)
  refine (contained_axiLengthOrOne source).bind fun length _ => ?_
  refine contained_checkGeometry.bind fun _ _ => ?_
  refine contained_word.bind fun address _ => ?_
  exact contained_word.bind fun payload _ => contained_pure

theorem contained_axiRead {operation : Operation} {command : Command} :
    Contained (axiRead grammar operation command) := by
  unfold axiRead
  refine contained_oneArgument.bind fun (target, rest) _ => ?_
  refine (contained_axiLengthOrOne (takeFront_takenBy _ _)).bind fun length _ => ?_
  refine contained_checkGeometry.bind fun _ _ => ?_
  refine contained_words.bind fun expected _ => ?_
  exact contained_word.bind fun address _ => contained_pure

theorem contained_dataLength {parameters : Parameters} {count : Nat}
    (taken : parameters.TakenBy (Rule.table .axi)) :
    Contained (dataLength (parameters.field? "length") count) := by
  unfold dataLength
  split
  · rename_i token given
    refine (contained_axiLength (taken.looksLikeLength given)).bind fun length _ => ?_
    split
    · exact contained_refuse
    · exact contained_pure
  · split
    · exact contained_refuse
    · exact contained_pure

theorem contained_axiBurstWrite {command : Command} :
    Contained (axiBurstWrite grammar command) := by
  rw [axiBurstWrite_eq]
  refine contained_addressAndMore.bind fun (target, rest) _ => ?_
  refine contained_burstData.bind fun data _ => ?_
  refine (contained_dataLength (takeFront_takenBy _ _)).bind fun length _ => ?_
  refine contained_checkGeometry.bind fun _ _ => ?_
  exact contained_word.bind fun address _ => contained_pure

/-! ## Counts -/

theorem contained_parseCount_iff {text what : String} {maximum : Option Int} :
    Contained (parseCount text what maximum) ↔ ¬IsOverlong text := by
  simp only [Contained, ne_eq, parseCount_eq_countTooLong_iff, not_and]
  constructor
  · intro other long
    exact other _ long rfl
  · intro short digits long
    exact absurd long short

theorem contained_preload {command : Command} : Contained (preload command) := by
  unfold preload
  split
  · exact contained_pure
  · exact contained_refuse

theorem contained_wait_iff {command : Command} :
    Contained (wait command) ↔
      ¬∃ count, command.arguments = [count] ∧ IsOverlong count := by
  unfold wait
  split
  · rename_i none
    simp [none, contained_pure]
  · rename_i count one
    simp only [one, List.cons.injEq, and_true, exists_eq_left']
    rw [contained_bind_iff, contained_parseCount_iff]
    exact and_iff_left fun cycles _ => contained_pure
  · rename_i more
    simp [more, contained_refuse]

theorem contained_pollMask {bus : Bus} {given : Option String} :
    Contained (pollMask grammar bus given) := by
  unfold pollMask
  split
  · exact contained_word
  · exact contained_pure

theorem contained_pollLimit_iff {given : Option String} :
    Contained (pollLimit grammar given) ↔ ¬∃ count, given = some count ∧ IsOverlong count := by
  unfold pollLimit
  cases given with
  | none => simp [contained_pure]
  | some count =>
    simp only [Option.some.injEq, exists_eq_left', contained_bind_iff, contained_parseCount_iff,
      and_iff_left_iff_imp]
    intro _ limit _
    split
    · exact contained_refuse
    · exact contained_pure

theorem contained_poll_iff {bus : Bus} {command : Command} :
    Contained (grammar.poll bus command) ↔
      ¬∃ target expected mask count, command.arguments = [target, expected, mask, count] ∧
        (∃ value, parseUnsigned mask (grammar.width bus) = .ok value) ∧ IsOverlong count := by
  rw [poll_eq]
  constructor
  · rintro contained ⟨target, expected, mask, count, given, ⟨value, read⟩, long⟩
    have limited := (contained_bind_iff.mp contained).2 (target, expected, [mask, count])
      (twoArguments_eq_ok_iff.mpr given)
    have masked : pollMask grammar bus (some mask) = .ok value :=
      word_eq_ok_iff.mpr ⟨value, read, rfl⟩
    have limit := (contained_bind_iff.mp ((contained_bind_iff.mp limited).2 value masked)).1
    exact contained_pollLimit_iff.mp limit ⟨count, rfl, long⟩
  · intro short
    refine contained_twoArguments.bind fun (target, expected, rest) given => ?_
    have given := twoArguments_eq_ok_iff.mp given
    dsimp only
    split
    · exact contained_refuse
    · rename_i few
      refine contained_pollMask.bind fun mask masked => ?_
      refine (contained_pollLimit_iff.mpr ?_).bind fun limit _ => ?_
      · -- A fourth argument stands behind a mask, and there is no fifth.
        rintro ⟨count, fourth, long⟩
        rcases rest with - | ⟨third, - | ⟨last, - | ⟨extra, more⟩⟩⟩
        · cases fourth
        · cases fourth
        · cases fourth
          obtain ⟨value, read, -⟩ := word_eq_ok_iff.mp masked
          exact short ⟨target, expected, third, count, given, ⟨value, read⟩, long⟩
        · exact few extra rfl
      · refine contained_word.bind fun address _ => ?_
        exact contained_word.bind fun value _ => contained_pure

/-! ## Lines -/

theorem contained_action_iff {command : Command} :
    Contained (grammar.action command) ↔ ¬command.CountsTooLong grammar := by
  rcases command with ⟨form, tokens, line⟩
  unfold action
  rcases form with ⟨bus, operation⟩ | - | -
  · cases operation with
    | write =>
      cases bus with
      | ahb => simp [contained_map_iff, contained_ahbWrite, Command.CountsTooLong]
      | axi => simp [contained_map_iff, contained_axiWrite, Command.CountsTooLong]
    | read =>
      cases bus with
      | ahb => simp [contained_map_iff, contained_ahbRead, Command.CountsTooLong]
      | axi => simp [contained_map_iff, contained_axiRead, Command.CountsTooLong]
    | burstWrite =>
      cases bus with
      | ahb => simp [contained_map_iff, contained_ahbBurstWrite, Command.CountsTooLong]
      | axi => simp [contained_map_iff, contained_axiBurstWrite, Command.CountsTooLong]
    | burstRead =>
      cases bus with
      | ahb => simp [contained_map_iff, contained_ahbBurstRead, Command.CountsTooLong]
      | axi => simp [contained_map_iff, contained_axiRead, Command.CountsTooLong]
    | poll => simp [contained_map_iff, contained_poll_iff, Command.CountsTooLong]
  · simp [contained_map_iff, contained_wait_iff, Command.CountsTooLong]
  · simp [contained_map_iff, contained_preload, Command.CountsTooLong]

theorem contained_resolve_iff {command : Command} :
    Contained (grammar.resolve command) ↔ ¬command.CountsTooLong grammar := by
  rw [← contained_action_iff]
  unfold resolve
  cases grammar.action command with
  | ok action => simp only [Except.mapError, contained_ok]
  | error fault => cases fault <;> simp [Except.mapError, CommandFault.atLine, Contained]

/-- The text is a command that reaches a count of too many digits. -/
def CountsTooLong (grammar : Grammar) (text : String) : Prop :=
  ∃ command, Command.ofTokens (tokenize text) none = .ok command ∧ command.CountsTooLong grammar

theorem contained_parse_iff {text : String} {line : Option Int} :
    Contained (grammar.parse text line) ↔ ¬grammar.CountsTooLong text := by
  unfold parse CountsTooLong Command.ofTokens
  cases Form.ofTokens (tokenize text) with
  | error cause => simp [Contained]
  | ok form => simp [contained_resolve_iff, Command.CountsTooLong, Command.arguments]

end Grammar

/-! ## Waits -/

open Text

theorem isBlank_of_isDigit {c : Char} (digit : c.isDigit = true) : isBlank c = false := by
  simp only [Char.isDigit, Bool.and_eq_true, decide_eq_true_eq, UInt32.le_iff_toNat_le] at digit
  have low : 48 ≤ c.toNat := digit.1
  have high : c.toNat ≤ 57 := digit.2
  unfold isBlank
  simp only [Bool.or_eq_false_iff, Bool.and_eq_false_iff, decide_eq_false_iff_not,
    beq_eq_false_iff_ne]
  omega

/-- A wait for a decimal count has the count as its only argument. -/
theorem tokenize_wait {count : String} (filled : count.toList ≠ [])
    (decimal : count.toList.all Char.isDigit = true) :
    tokenize ("WAIT " ++ count) = ["WAIT", count] := by
  have solid : ∀ c ∈ count.toList, isBlank c = false := by
    intro c member
    exact isBlank_of_isDigit (List.all_eq_true.mp decimal c member)
  have keyword : Solid "WAIT".toList := by
    intro c member
    have whole : ("WAIT".toList.all fun c => !isBlank c) = true := rfl
    simpa using List.all_eq_true.mp whole c member
  have text : ("WAIT " ++ count).toList = "WAIT".toList ++ ' ' :: count.toList := by
    rw [String.toList_append]
    rfl
  have laid : Laid ["WAIT".toList, count.toList] ("WAIT " ++ count).toList := by
    rw [text]
    exact .word (by decide) keyword (by decide) (.last filled solid)
  have other : some "WAIT" ≠ some "PRELOAD" := by decide
  exact tokenize_of_laid laid other

theorem Grammar.countsTooLong_of_wait {count : String} (long : IsOverlong count)
    (grammar : Grammar) :
    grammar.CountsTooLong ("WAIT " ++ count) := by
  obtain ⟨decimal, digits⟩ := long
  have some : count.toList ≠ [] := List.ne_nil_of_length_pos (by omega)
  refine ⟨⟨.wait, ["WAIT", count], none⟩, ?_, .inl ⟨rfl, count, rfl, decimal, digits⟩⟩
  rw [tokenize_wait some decimal]
  rfl

end BusScript
