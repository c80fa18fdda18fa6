import Mathlib.Data.List.TakeDrop
import Mathlib.Data.List.TakeWhile
import BusScript.Proofs.Text.Trimming
import BusScript.Script.Source

/-!
# Cutting texts into lines

A text is cut line by line (`lines_of_cutLine`), and a line feed at the end of a line is no part of
its content. Line ends can be unified part by part, unless the cut is between a carriage return and
its line feed.
-/

namespace BusScript

namespace Text

/-! ## Line ends -/

theorem unifyNewlines_return {rest : List Char} (alone : rest.head? ≠ some '\n') :
    unifyNewlines ('\r' :: rest) = '\n' :: unifyNewlines rest := by
  rw [unifyNewlines]
  rintro more rfl
  exact alone rfl

theorem unifyNewlines_other {c : Char} (other : c ≠ '\r') (rest : List Char) :
    unifyNewlines (c :: rest) = c :: unifyNewlines rest := by
  rw [unifyNewlines]
  · exact fun _ same _ => other same
  · exact other

theorem unifyNewlines_append {first rest : List Char}
    (apart : first.getLast? ≠ some '\r' ∨ rest.head? ≠ some '\n') :
    unifyNewlines (first ++ rest) = unifyNewlines first ++ unifyNewlines rest := by
  have onward {c : Char} {more : List Char}
      (apart : (c :: more).getLast? ≠ some '\r' ∨ rest.head? ≠ some '\n') :
      more.getLast? ≠ some '\r' ∨ rest.head? ≠ some '\n' := by
    cases more with
    | nil => exact .inl (by simp)
    | cons d more => rwa [List.getLast?_cons_cons] at apart
  fun_induction unifyNewlines first with
  | case1 => rfl
  | case2 more ih =>
    simp only [List.cons_append, unifyNewlines, ih (onward (onward apart))]
  | case3 more other ih =>
    have alone : (more ++ rest).head? ≠ some '\n' := by
      cases more with
      | nil => exact apart.resolve_left (fun last => last rfl)
      | cons d more =>
        intro feed
        cases feed
        exact other more rfl
    rw [List.cons_append, unifyNewlines_return alone, ih (onward apart)]
    rfl
  | case4 c more _ other ih =>
    rw [List.cons_append, unifyNewlines_other other, ih (onward apart)]
    rfl

theorem length_unifyNewlines_le (text : List Char) :
    (unifyNewlines text).length ≤ text.length := by
  fun_induction unifyNewlines text with
  | case1 => exact le_refl _
  | case2 rest ih =>
    rw [List.length_cons, List.length_cons, List.length_cons]
    omega
  | case3 rest _ ih => rw [List.length_cons, List.length_cons]; omega
  | case4 c rest _ _ ih => rw [List.length_cons, List.length_cons]; omega

/-! ## Lines -/

theorem lines_nil : lines [] = [] := by
  decide

theorem splitOnP_of_solid {text : List Char} (solid : ∀ c ∈ text, c ≠ '\n') :
    text.splitOnP (· == '\n') = [text] :=
  List.splitOnP_eq_singleton fun c member => by simpa using solid c member

/-- A text without a line feed is one line, if there is any of it. -/
theorem lines_of_solid {line : List Char} (solid : ∀ c ∈ line, c ≠ '\n') (some : line ≠ []) :
    lines line = [line] := by
  simp [lines, linesBy, splitOnP_of_solid solid, some]

theorem splitOnP_feed {line : List Char} (solid : ∀ c ∈ line, c ≠ '\n') (rest : List Char) :
    (line ++ '\n' :: rest).splitOnP (· == '\n') = line :: rest.splitOnP (· == '\n') := by
  have clear : ∀ c ∈ line, (c == '\n') = false := fun c member => by simpa using solid c member
  exact List.splitOnP_append_cons_of_forall_mem clear '\n' rfl rest

/-- A line feed ends the first line. -/
theorem lines_feed {line : List Char} (solid : ∀ c ∈ line, c ≠ '\n') (rest : List Char) :
    lines (line ++ '\n' :: rest) = line :: lines rest := by
  have some : rest.splitOnP (· == '\n') ≠ [] := List.splitOnP_ne_nil _ _
  unfold lines linesBy
  dsimp only
  rw [splitOnP_feed solid, List.getLast?_cons_of_ne_nil some, List.dropLast_cons_of_ne_nil some]
  split <;> rfl

/-- The lines of a text that a line feed ends. -/
def endedLines (text : List Char) : List (List Char) :=
  (text.splitOnP (· == '\n')).dropLast

theorem endedLines_of_solid {text : List Char} (solid : ∀ c ∈ text, c ≠ '\n') :
    endedLines text = [] := by
  rw [endedLines, splitOnP_of_solid solid, List.dropLast_singleton]

theorem endedLines_feed {line : List Char} (solid : ∀ c ∈ line, c ≠ '\n') (rest : List Char) :
    endedLines (line ++ '\n' :: rest) = line :: endedLines rest := by
  have some : rest.splitOnP (· == '\n') ≠ [] := List.splitOnP_ne_nil _ _
  rw [endedLines, splitOnP_feed solid, List.dropLast_cons_of_ne_nil some, endedLines]

end Text

namespace Script

open Text

/-! ## First lines -/

theorem cutLine_feed {line : List Char} (solid : ∀ c ∈ line, c ≠ '\n') (rest : List Char) :
    cutLine (line ++ '\n' :: rest) = (line ++ ['\n'], rest) := by
  have clear : ∀ c ∈ line, (c != '\n') = true := fun c member => by simpa using solid c member
  unfold cutLine
  rw [List.span_eq_takeWhile_dropWhile, List.takeWhile_append_of_pos clear,
    List.dropWhile_append_of_pos clear, List.takeWhile_cons_of_neg (by decide),
    List.dropWhile_cons_of_neg (by decide), List.append_nil]
  rfl

theorem cutLine_of_solid {text : List Char} (solid : ∀ c ∈ text, c ≠ '\n') :
    cutLine text = (text, []) := by
  have clear : ∀ c ∈ text, (c != '\n') = true := fun c member => by simpa using solid c member
  unfold cutLine
  rw [List.span_eq_takeWhile_dropWhile, List.takeWhile_eq_self_iff.mpr clear,
    List.dropWhile_eq_nil_iff.mpr clear]

theorem feed_or_solid (text : List Char) :
    (∃ line rest, text = line ++ '\n' :: rest ∧ ∀ c ∈ line, c ≠ '\n') ∨ ∀ c ∈ text, c ≠ '\n' := by
  by_cases feed : '\n' ∈ text
  · obtain ⟨line, rest, same, clear⟩ := List.eq_append_cons_of_mem feed
    exact .inl ⟨line, rest, same, fun c member equal => clear (equal ▸ member)⟩
  · exact .inr fun c member equal => feed (equal ▸ member)

theorem cutLine_append {first : List Char} (solid : ∀ c ∈ first, c ≠ '\n') (rest : List Char) :
    cutLine (first ++ rest) = (first ++ (cutLine rest).1, (cutLine rest).2) := by
  rcases feed_or_solid rest with ⟨line, rest, rfl, clear⟩ | clear
  · rw [← List.append_assoc, cutLine_feed, cutLine_feed clear, List.append_assoc]
    exact List.forall_mem_append.mpr ⟨solid, clear⟩
  · rw [cutLine_of_solid clear, cutLine_of_solid (List.forall_mem_append.mpr ⟨solid, clear⟩)]

/-- A trimmed character at the end of a line makes no difference, behind a comment or not. -/
theorem stripLine_concat {c : Char} (trimmed : isTrimmed c = true) (line : List Char) :
    stripLine (line ++ [c]) = stripLine line := by
  have plain : (c != '#') = true := by
    rw [bne_iff_ne]
    rintro rfl
    cases trimmed
  unfold stripLine
  rw [List.takeWhile_append]
  split
  · rename_i whole
    have one : [c].takeWhile (fun d => d != '#') = [c] := List.takeWhile_cons_of_pos plain
    rw [(List.takeWhile_sublist _).eq_of_length whole, one]
    exact trim_concat trimmed line
  · rfl

theorem stripLine_feed (line : List Char) : stripLine (line ++ ['\n']) = stripLine line :=
  stripLine_concat rfl line

/-- A text that is not empty is its first line and the lines behind that. -/
theorem lines_of_cutLine {text : List Char} (some : text ≠ []) :
    ∃ line, lines text = line :: lines (cutLine text).2 ∧
      stripLine (cutLine text).1 = stripLine line ∧ (cutLine text).1 ≠ [] ∧
      (cutLine text).2.length < text.length := by
  rcases feed_or_solid text with ⟨line, rest, rfl, solid⟩ | solid
  · rw [cutLine_feed solid]
    refine ⟨line, lines_feed solid rest, stripLine_feed line, by simp, ?_⟩
    rw [List.length_append, List.length_cons]
    exact Nat.lt_add_left _ (Nat.lt_succ_self _)
  · rw [cutLine_of_solid solid]
    exact ⟨text, lines_of_solid solid some, rfl, some, List.length_pos_iff.mpr some⟩

theorem length_endedLines_le (text : List Char) : (endedLines text).length ≤ text.length := by
  induction size : text.length using Nat.strongRecOn generalizing text with
  | ind size ih =>
    rcases feed_or_solid text with ⟨line, rest, rfl, solid⟩ | solid
    · rw [List.length_append, List.length_cons] at size
      have few := ih rest.length (by omega) rest rfl
      rw [endedLines_feed solid, List.length_cons]
      omega
    · rw [endedLines_of_solid solid]
      exact Nat.zero_le _

theorem length_lines_le (text : List Char) : (lines text).length ≤ text.length := by
  induction size : text.length using Nat.strongRecOn generalizing text with
  | ind size ih =>
    rcases eq_or_ne text [] with rfl | some
    · rw [lines_nil]
      exact Nat.zero_le _
    · obtain ⟨line, same, -, -, shorter⟩ := lines_of_cutLine some
      have few := ih _ (size ▸ shorter) (cutLine text).2 rfl
      rw [same, List.length_cons]
      omega

end Script

end BusScript
