import BusScript.Proofs.Command.Letters
import BusScript.Proofs.Text.Layout

/-!
# Lines in another spelling

A line can be written in other ways without other words: letters in the other case, other white
space between the words, and any at the ends. `Respelled` relates two such lines. Outside preloads,
whose path and file are kept as they are written, both ask for the same action or are refused with
faults of one class (`parse_respelled`).
-/

namespace BusScript

open Text

/-! ## Spellings -/

/-- Both texts are laid out from the same words, up to the case of letters. -/
def Respelled (text other : String) : Prop :=
  ∃ tokens others : List String,
    Laid (tokens.map String.toList) text.toList ∧ Laid (others.map String.toList) other.toList ∧
      List.Forall₂ SameLetters tokens others

/-- The first word of a text in capitals. -/
def capitalFirst? (text : String) : Option (List Char) :=
  (words text.toList).head?.map capitalize

/-- The first of some tokens in capitals. -/
def capitalHead? (tokens : List String) : Option (List Char) :=
  tokens.head?.map fun token => capitalize token.toList

theorem capitalHead?_of_laid {tokens : List String} {text : String}
    (laid : Laid (tokens.map String.toList) text.toList) :
    capitalHead? tokens = capitalFirst? text := by
  rw [capitalFirst?, laid.words_eq, List.head?_map, Option.map_map]
  rfl

theorem capitalHead?_lower (tokens : List String) :
    capitalHead? (tokens.map Text.lower) = capitalHead? tokens := by
  cases tokens with
  | nil => rfl
  | cons first rest =>
    simp only [capitalHead?, List.map_cons, List.head?_cons, Option.map_some, capitalize_lower]

/-- The capitals of the preload keyword are the keyword. -/
theorem head?_ne_of_capitalHead? {tokens : List String}
    (other : capitalHead? tokens ≠ some preloadKeyword) : tokens.head? ≠ some "PRELOAD" := by
  intro first
  apply other
  rw [capitalHead?, first]
  decide

/-- Respelled lines are cut into tokens that are the same in small letters. -/
theorem Respelled.tokenize {text other : String} (respelled : Respelled text other)
    (first : capitalFirst? text ≠ some preloadKeyword) :
    (tokenize text).map Text.lower = (tokenize other).map Text.lower ∧
      capitalHead? (tokenize text) ≠ some preloadKeyword := by
  obtain ⟨tokens, others, laid, relaid, letters⟩ := respelled
  have same : tokens.map Text.lower = others.map Text.lower := map_lower_eq letters
  rw [← capitalHead?_of_laid laid] at first
  have second : capitalHead? others ≠ some preloadKeyword := by
    rwa [← capitalHead?_lower, ← same, capitalHead?_lower]
  rw [tokenize_of_laid laid (head?_ne_of_capitalHead? first),
    tokenize_of_laid relaid (head?_ne_of_capitalHead? second)]
  exact ⟨same, first⟩

/-! ## Forms -/

theorem kind_of_ofTokens {tokens : List String} {cause : Cause}
    (refused : Form.ofTokens tokens = .error cause) : cause.kind = .command := by
  unfold Form.ofTokens at refused
  split at refused
  · cases refused
    rfl
  · split at refused
    · cases refused
      rfl
    · cases refused
    · cases refused
    · split at refused
      · cases refused
        rfl
      · split at refused
        · cases refused
          rfl
        · cases refused

theorem ne_preload_of_ofTokens {tokens : List String} {form : Form}
    (first : capitalHead? tokens ≠ some preloadKeyword)
    (made : Form.ofTokens tokens = .ok form) : form ≠ .preload := by
  rintro rfl
  unfold Form.ofTokens at made
  split at made
  · cases made
  · rename_i token rest
    split at made
    · cases made
    · cases made
    · rename_i named
      have spelled := List.find?_some named
      apply first
      rw [capitalHead?, List.head?_cons, Option.map_some, ← eq_of_beq spelled]
      rfl
    · split at made
      · cases made
      · split at made
        · cases made
        · cases made

/-! ## Faults -/

/-- Faults of one class: script errors of one family, or two counts of too many digits. -/
def CommandFault.SameClass : CommandFault → CommandFault → Prop
  | .script error, .script other => error.cause.kind = other.cause.kind
  | .countTooLong _, .countTooLong _ => True
  | _, _ => False

/-- Two lines come to the same action, or are refused with faults of one class. -/
inductive Agree : Except CommandFault Action → Except CommandFault Action → Prop
  | action (action : Action) : Agree (.ok action) (.ok action)
  | refused {fault other : CommandFault} :
    fault.SameClass other → Agree (.error fault) (.error other)

namespace Grammar

variable {grammar : Grammar}

/-- Alike steps come to the same, on any line. -/
theorem Alike.agree {x y : Resolving Action} (alike : Alike Eq x y) (line : Option Int) :
    Agree (x.mapError (·.atLine line)) (y.mapError (·.atLine line)) := by
  cases alike with
  | ok same =>
    rw [same]
    exact .action _
  | refused kind => exact .refused kind
  | tooLong digits => exact .refused trivial

/-- Outside preloads, a line and another spelling of it are read as the same action or refused with
faults of one class. -/
theorem parse_respelled {text other : String} (line : Option Int)
    (respelled : Respelled text other) (first : capitalFirst? text ≠ some preloadKeyword) :
    Agree (grammar.parse text line) (grammar.parse other line) := by
  obtain ⟨same, first⟩ := respelled.tokenize first
  have formed (form : Form) : Form.ofTokens (tokenize text) = .ok form ↔
      Form.ofTokens (tokenize other) = .ok form := by
    rw [← ofTokens_lower, same, ofTokens_lower]
  unfold parse Command.ofTokens
  cases made : Form.ofTokens (tokenize text) with
  | ok form =>
    rw [(formed form).mp made]
    exact (alike_of_sameLetters grammar same (ne_preload_of_ofTokens first made)).agree line
  | error cause =>
    cases remade : Form.ofTokens (tokenize other) with
    | ok form =>
      rw [(formed form).mpr remade] at made
      cases made
    | error found => exact .refused ((kind_of_ofTokens made).trans (kind_of_ofTokens remade).symm)

/-- A read in letters of both cases, with a tab and a wide blank, and a wait that is no command in
either spelling. -/
theorem parse_respelled_read :
    let text := "AXI READ 0x1F WRAP 1 0xAB 0xCD"
    let other := "\taxi Read\u00a00X1f  wraP 1 0Xab 0xcd "
    Respelled text other ∧ capitalFirst? text ≠ some preloadKeyword ∧
      Agree (Grammar.parse {} text (some 3)) (Grammar.parse {} other (some 3)) ∧
      (∃ action, Grammar.parse {} other (some 3) = .ok action) ∧
      Agree (Grammar.parse {} "WAIT 1x" none) (Grammar.parse {} " wait 1X" none) := by
  intro text other
  have respelled : Respelled text other := by
    refine ⟨["AXI", "READ", "0x1F", "WRAP", "1", "0xAB", "0xCD"],
      ["axi", "Read", "0X1f", "wraP", "1", "0Xab", "0xcd"], ?_, ?_, by decide⟩
    · exact laid_iff.mpr (by decide +kernel)
    · exact laid_iff.mpr (by decide +kernel)
  have waits : Respelled "WAIT 1x" " wait 1X" := by
    refine ⟨["WAIT", "1x"], ["wait", "1X"], ?_, ?_, by decide⟩
    · exact laid_iff.mpr (by decide +kernel)
    · exact laid_iff.mpr (by decide +kernel)
  have first : capitalFirst? text ≠ some preloadKeyword := by decide +kernel
  have agree := @parse_respelled {} text other (some 3) respelled first
  have read : (Grammar.parse {} other (some 3)).isOk = true := by decide +kernel
  refine ⟨respelled, first, agree, ?_, parse_respelled none waits (by decide +kernel)⟩
  cases parsed : Grammar.parse {} other (some 3) with
  | ok action => exact ⟨action, rfl⟩
  | error fault =>
    rw [parsed] at read
    cases read

end Grammar

end BusScript
