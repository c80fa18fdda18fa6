import Mathlib.Data.List.Nodup
import BusScript.Script.Source

/-!
# Numbers of lines

A source gives out its lines under growing numbers (`increasing_readAll`), since it reads at least
one line for each line that it gives out. So a number stands for one line of the script
(`nodup_numbers_readAll`).
-/

namespace BusScript.Script.Source

/-! ## One line -/

theorem lt_of_firstContent {read after : Nat} {lines rest : List (List Char)}
    {content : List Char} (found : firstContent read lines = (some content, rest, after)) :
    read < after := by
  induction lines generalizing read with
  | nil => cases found
  | cons line lines ih =>
    unfold firstContent at found
    dsimp only at found
    split at found
    · have later := ih found
      omega
    · cases found
      exact Nat.lt_succ_self read

theorem lt_of_firstContentOf {limit read after : Nat} {reader rest : Reader} {content : List Char}
    (found : firstContentOf limit read reader = (.ok (some content), rest, after)) :
    read < after := by
  induction limit generalizing read reader with
  | zero => cases found
  | succ limit ih =>
    unfold firstContentOf at found
    split at found
    · cases found
    · cases found
    · dsimp only at found
      split at found
      · have later := ih found
        omega
      · cases found
        exact Nat.lt_succ_self read

theorem lineNumber_of_opened {tree : Tree} {source opened : Source}
    (opens : source.opened tree = .ok opened) : opened.lineNumber = source.lineNumber := by
  unfold Source.opened at opens
  split at opens
  · split at opens
    · cases opens
      rfl
    · cases opens
    · cases opens
  · cases opens
    rfl

/-- A source that gives out a line has counted on. -/
theorem lineNumber_lt_of_next {tree : Tree} {source later : Source} {line : String}
    (given : source.next tree = (.ok (some line), later)) :
    source.lineNumber < later.lineNumber := by
  unfold next at given
  cases opens : source.opened tree with
  | error fault =>
    rw [opens] at given
    cases given
  | ok opened =>
    rw [opens] at given
    rw [← lineNumber_of_opened opens]
    obtain ⟨lines | ⟨path, - | reader⟩, number⟩ := opened
    · dsimp only at given
      rcases found : firstContent 0 lines with ⟨content, rest, read⟩
      rw [found] at given
      cases content with
      | none => cases given
      | some content =>
        cases given
        exact Nat.lt_add_of_pos_right (lt_of_firstContent found)
    · cases given
    · dsimp only at given
      rcases found : firstContentOf (linesLeft reader) 0 reader with ⟨content, rest, read⟩
      rw [found] at given
      rcases content with fault | - | content
      · cases given
      · cases given
      · cases given
        exact Nat.lt_add_of_pos_right (lt_of_firstContentOf found)

/-! ## All lines -/

/-- Lines that a source gives out stand under growing numbers, all above that of the line it read
last. -/
theorem increasing_collect (tree : Tree) (limit : Nat) (source : Source) :
    (∀ line ∈ (source.collect tree limit).1, source.lineNumber < line.1) ∧
      (source.collect tree limit).1.Pairwise fun first later => first.1 < later.1 := by
  induction limit generalizing source with
  | zero => exact ⟨List.forall_mem_nil _, .nil⟩
  | succ limit ih =>
    unfold collect
    rcases given : source.next tree with ⟨content, next⟩
    rcases content with fault | - | line
    · exact ⟨List.forall_mem_nil _, .nil⟩
    · exact ⟨List.forall_mem_nil _, .nil⟩
    · have counted := lineNumber_lt_of_next given
      obtain ⟨above, increasing⟩ := ih next
      refine ⟨?_, List.pairwise_cons.mpr ⟨above, increasing⟩⟩
      intro other member
      rcases List.mem_cons.mp member with rfl | member
      · exact counted
      · exact Nat.lt_trans counted (above other member)

/-- The lines of a source stand under growing numbers. -/
theorem increasing_readAll (tree : Tree) (source : Source) :
    (source.readAll tree).1.Pairwise fun first later => first.1 < later.1 := by
  unfold readAll
  cases source.opened tree with
  | error fault => exact .nil
  | ok opened => exact (increasing_collect tree _ opened).2

/-- Only one line of a source has its number. -/
theorem nodup_numbers_readAll (tree : Tree) (source : Source) :
    ((source.readAll tree).1.map (·.1)).Nodup :=
  List.pairwise_map.mpr ((increasing_readAll tree source).imp Nat.ne_of_lt)

end BusScript.Script.Source
