/-!
# Terminal sequences

A control sequence tells a terminal to change colour or to move: an escape character, an opening
bracket, parameters and one letter that says what to do. Text that does not go to a terminal is
shown without them. An escape character that starts no whole sequence stays.
-/

namespace BusScript.Text

/-- The character that starts a control sequence. -/
def escapeChar : Char := Char.ofNat 27

/-- The characters that parameters are made of. -/
def isParameterChar (c : Char) : Bool :=
  c.isDigit || c == ';' || c == '?'

/-- What follows a control sequence, given what follows its escape character; nothing if that does
not make one. -/
def afterSequence? : List Char → Option (List Char)
  | '[' :: rest => match rest.dropWhile isParameterChar with
    | letter :: after => if letter.isAlpha then some after else none
    | [] => none
  | _ => none

/-- What follows a control sequence is shorter than the text that held it. -/
theorem length_lt_of_afterSequence? {text after : List Char}
    (h : afterSequence? text = some after) : after.length < text.length := by
  unfold afterSequence? at h
  split at h
  · rename_i rest
    have shorter := (List.dropWhile_suffix (l := rest) isParameterChar).length_le
    split at h
    · rename_i letter tail dropped
      rw [dropped] at shorter
      split at h
      · simp only [Option.some.injEq] at h
        subst h
        simp only [List.length_cons] at shorter ⊢
        omega
      · cases h
    · cases h
  · cases h

/-- A text without its control sequences. -/
def dropSequences : List Char → List Char
  | [] => []
  | c :: rest =>
    match _taken : if c = escapeChar then afterSequence? rest else none with
    | some after => dropSequences after
    | none => c :: dropSequences rest
termination_by text => text.length
decreasing_by
  · split at _taken
    · have := length_lt_of_afterSequence? _taken
      simp only [List.length_cons]
      omega
    · cases _taken
  · simp

end BusScript.Text
