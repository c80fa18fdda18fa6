import BusScript.Script.Source

/-!
# Physical lines

A script is a list of physical lines, and its source gives out those with content, each under its
position among all of them (`numbered`). Lines without content leave no trace but in the positions
behind them. One search for the next line with content is `Found`.
-/

namespace BusScript.Script

/-- The physical lines with content, stripped, under their positions behind the first lines. -/
def numbered (first : Nat) : List (List Char) → List (Nat × String)
  | [] => []
  | line :: rest =>
    if stripLine line = [] then numbered (first + 1) rest
    else (first + 1, String.ofList (stripLine line)) :: numbered (first + 1) rest

theorem numbered_cons_idle {line : List Char} (idle : stripLine line = []) (first : Nat)
    (rest : List (List Char)) : numbered first (line :: rest) = numbered (first + 1) rest :=
  if_pos idle

theorem numbered_cons {line : List Char} (some : stripLine line ≠ []) (first : Nat)
    (rest : List (List Char)) : numbered first (line :: rest) =
      (first + 1, String.ofList (stripLine line)) :: numbered (first + 1) rest :=
  if_neg some

theorem numbered_eq_nil_iff {first : Nat} {lines : List (List Char)} :
    numbered first lines = [] ↔ ∀ line ∈ lines, stripLine line = [] := by
  induction lines generalizing first with
  | nil => simp [numbered]
  | cons line rest ih =>
    rw [List.forall_mem_cons]
    by_cases idle : stripLine line = []
    · rw [numbered_cons_idle idle, ih]
      exact (and_iff_right idle).symm
    · rw [numbered_cons idle]
      exact iff_of_false (List.cons_ne_nil _ _) fun all => idle all.1

/-- A line stands under its position. -/
theorem mem_numbered_iff {first number : Nat} {lines : List (List Char)} {content : String} :
    (number, content) ∈ numbered first lines ↔
      ∃ i line, lines[i]? = some line ∧ number = first + 1 + i ∧ stripLine line ≠ [] ∧
        content = String.ofList (stripLine line) := by
  induction lines generalizing first with
  | nil => simp [numbered]
  | cons line rest ih =>
    have later : (number, content) ∈ numbered (first + 1) rest ↔
        ∃ i other, (line :: rest)[i + 1]? = some other ∧ number = first + 1 + (i + 1) ∧
          stripLine other ≠ [] ∧ content = String.ofList (stripLine other) := by
      rw [ih]
      have behind (i : Nat) : first + 1 + 1 + i = first + 1 + (i + 1) := by omega
      simp only [List.getElem?_cons_succ, behind]
    by_cases idle : stripLine line = []
    · rw [numbered_cons_idle idle, later]
      constructor
      · rintro ⟨i, other, found⟩
        exact ⟨i + 1, other, found⟩
      · rintro ⟨- | i, other, at_, position, some, same⟩
        · cases at_
          exact absurd idle some
        · exact ⟨i, other, at_, position, some, same⟩
    · rw [numbered_cons idle, List.mem_cons, later]
      constructor
      · rintro (found | ⟨i, other, found⟩)
        · cases found
          exact ⟨0, line, rfl, rfl, idle, rfl⟩
        · exact ⟨i + 1, other, found⟩
      · rintro ⟨- | i, other, at_, position, some, same⟩
        · cases at_
          rw [position, same]
          exact .inl rfl
        · exact .inr ⟨i, other, at_, position, some, same⟩

/-! ## The first line with content -/

/-- Looking for the first line with content among lines reads so many of them, finds its content, if
there is any, and leaves the lines behind. -/
inductive Found : List (List Char) → Nat → Option (List Char) → List (List Char) → Prop
  | ended : Found [] 0 none []
  | idle {line : List Char} {lines rest : List (List Char)} {count : Nat}
    {content : Option (List Char)} :
    stripLine line = [] → Found lines count content rest →
      Found (line :: lines) (count + 1) content rest
  | here {line : List Char} {lines : List (List Char)} :
    stripLine line ≠ [] → Found (line :: lines) 1 (some (stripLine line)) lines

namespace Found

variable {lines rest : List (List Char)} {count : Nat} {content : Option (List Char)}

/-- What is found stands under the position up to which lines were read. -/
theorem numbered_eq (found : Found lines count content rest) (first : Nat) :
    numbered first lines = content.elim [] fun content =>
      (first + count, String.ofList content) :: numbered (first + count) rest := by
  induction found generalizing first with
  | ended => rfl
  | idle idle _ ih =>
    rw [numbered_cons_idle idle, ih, Nat.add_right_comm, Nat.add_assoc]
  | here some =>
    rw [numbered_cons some]
    rfl

theorem rest_eq (found : Found lines count content rest) :
    count ≤ lines.length ∧ rest = lines.drop count := by
  induction found with
  | ended => exact ⟨Nat.le_refl 0, rfl⟩
  | idle _ _ ih => exact ⟨Nat.succ_le_succ ih.1, ih.2⟩
  | here => exact ⟨Nat.succ_le_succ (Nat.zero_le _), rfl⟩

theorem count_pos {text : List Char} (found : Found lines count (some text) rest) :
    0 < count := by
  cases found with
  | idle => exact Nat.succ_pos _
  | here => exact Nat.one_pos

theorem length_eq (found : Found lines count content rest) :
    count + rest.length = lines.length := by
  obtain ⟨few, rfl⟩ := found.rest_eq
  rw [List.length_drop]
  exact Nat.add_sub_cancel' few

/-- The content is that of the line read last, and no line before it has any. -/
theorem line_of_some {text : List Char} (found : Found lines count (some text) rest) :
    ∃ line, lines[count - 1]? = some line ∧ text = stripLine line ∧ text ≠ [] ∧
      ∀ i other, i + 1 < count → lines[i]? = some other → stripLine other = [] := by
  generalize given : some text = content at found
  induction found with
  | ended => cases given
  | @idle line lines rest count content idle found ih =>
    subst given
    have read := found.count_pos
    obtain ⟨last, at_, same, some, before⟩ := ih rfl
    refine ⟨last, ?_, same, some, ?_⟩
    · rw [← at_, show count + 1 - 1 = count - 1 + 1 by omega, List.getElem?_cons_succ]
    · rintro (- | i) other early here
      · cases here
        exact idle
      · exact before i other (by omega) here
  | @here line lines some =>
    cases given
    exact ⟨line, rfl, rfl, some, fun i _ early => by omega⟩

/-- All lines were read if nothing is found, and none of them has content. -/
theorem idle_of_none (found : Found lines count none rest) :
    count = lines.length ∧ ∀ line ∈ lines, stripLine line = [] := by
  generalize given : (none : Option (List Char)) = content at found
  induction found with
  | ended => exact ⟨rfl, List.forall_mem_nil _⟩
  | idle idle _ ih =>
    obtain ⟨all, none⟩ := ih given
    exact ⟨congrArg (· + 1) all, List.forall_mem_cons.mpr ⟨idle, none⟩⟩
  | here => cases given

end Found

theorem Source.found_of_firstContent {first after : Nat} {lines rest : List (List Char)}
    {content : Option (List Char)} (given : firstContent first lines = (content, rest, after)) :
    ∃ count, after = first + count ∧ Found lines count content rest := by
  induction lines generalizing first with
  | nil =>
    cases given
    exact ⟨0, rfl, .ended⟩
  | cons line lines ih =>
    unfold firstContent at given
    dsimp only at given
    split at given
    · rename_i idle
      obtain ⟨count, rfl, found⟩ := ih given
      exact ⟨count + 1, Nat.add_right_comm first 1 count, .idle (List.isEmpty_iff.mp idle) found⟩
    · rename_i some
      cases given
      exact ⟨1, rfl, .here fun idle => some (List.isEmpty_iff.mpr idle)⟩

end BusScript.Script
