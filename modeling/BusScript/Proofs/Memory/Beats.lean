import BusScript.Proofs.Bus.Address
import BusScript.Proofs.Memory.Stores

/-!
# Beats in memory

A beat covers as many cells as it has bytes, from its address on and past the last cell to the first
(`Store.cells`). A word stays in memory if no later beat covers a cell of its beat, and then it is
read back from there. The beats of a rising or wrapping burst cover different cells, but for the
first two of a rising burst that starts unaligned.
-/

namespace BusScript

namespace Store

/-! ## Cells -/

/-- The cells of so many bytes from an address on. -/
def cells (address : Int) (count : ℕ) : List ℕ :=
  (List.range count).map fun (i : ℕ) => cell (address + i)

theorem mem_cells_iff {address : Int} {count place : ℕ} :
    place ∈ cells address count ↔ ∃ i : ℕ, i < count ∧ cell (address + i) = place := by
  simp only [cells, List.mem_map, List.mem_range]

theorem cells_address32 (address : Int) (count : ℕ) :
    cells (address32 address) count = cells address count := by
  unfold cells
  simp only [cell_address32_add]

theorem map_fst_wordBytes (address value : Int) (count : ℕ) :
    (wordBytes address value count).map (·.1) = cells address count := by
  unfold wordBytes cells
  rw [List.map_map]
  rfl

theorem lastStored_wordBytes_eq_none_iff {address value : Int} {count place : ℕ} :
    lastStored (wordBytes address value count) place = none ↔ place ∉ cells address count := by
  rw [lastStored_eq_none_iff, map_fst_wordBytes]

theorem cell_eq_emod (address : Int) : (cell address : Int) = address % 2 ^ 32 := by
  have power : Int.pow 2 addressWidth = 4294967296 := rfl
  unfold cell address32
  rw [power]
  omega

/-- Stretches of cells are disjoint if one follows the other within a turn of the memory. -/
theorem disjoint_cells {first later : Int} {count more : ℕ} (behind : first + count ≤ later)
    (turn : later + more ≤ first + 2 ^ 32) : (cells first count).Disjoint (cells later more) := by
  intro place one other
  obtain ⟨i, low, rfl⟩ := mem_cells_iff.mp one
  obtain ⟨j, small, same⟩ := mem_cells_iff.mp other
  have equal : (cell (later + j) : Int) = cell (first + i) := by rw [same]
  rw [cell_eq_emod, cell_eq_emod] at equal
  omega

theorem nodup_cells {address : Int} {count : ℕ} (few : count ≤ 2 ^ 32) :
    (cells address count).Nodup := by
  refine List.Nodup.map_on (fun i low j small same => ?_) List.nodup_range
  have low := List.mem_range.mp low
  have small := List.mem_range.mp small
  have equal : (cell (address + i) : Int) = cell (address + j) := by rw [same]
  rw [cell_eq_emod, cell_eq_emod] at equal
  omega

/-- Each byte of a word stays, the word being no longer than the memory. -/
theorem lastStored_wordBytes {address value : Int} {count offset : ℕ} (low : offset < count)
    (few : count ≤ 2 ^ 32) :
    lastStored (wordBytes address value count) (cell (address + offset)) =
      some (byteAt value offset) := by
  have distinct : ((wordBytes address value count).map (·.1)).Nodup := by
    rw [map_fst_wordBytes]
    exact nodup_cells few
  have member : (cell (address + offset), byteAt value offset) ∈ wordBytes address value count :=
    List.mem_map.mpr ⟨offset, List.mem_range.mpr low, rfl⟩
  exact lastStored_of_mem distinct member

theorem cells_subset {inner outer : Int} {count more : ℕ} (start : outer ≤ inner)
    (stop : inner + count ≤ outer + more) : cells inner count ⊆ cells outer more := by
  intro place inside
  obtain ⟨i, low, rfl⟩ := mem_cells_iff.mp inside
  refine mem_cells_iff.mpr ⟨(inner - outer).toNat + i, by omega, ?_⟩
  congr 1
  omega

/-! ## Words of beats -/

/-- The bytes that words store at the addresses of their beats, beat by beat. -/
def beatWrites (address : ℕ → Int) (count : ℕ) (words : List Int) : List (ℕ × UInt8) :=
  words.zipIdx.flatMap fun (word, i) => wordBytes (address i) word count

theorem writeBeats_eq_written (store : Store) (burst : Burst) (address beatBytes : Int)
    (words : List Int) :
    store.writeBeats burst address beatBytes words =
      store.written (beatWrites (beatAddress burst.addressing address · beatBytes words.length)
        beatBytes.toNat words) := by
  rw [beatWrites, written, List.foldl_flatMap, writeBeats]
  refine List.foldl_ext _ _ _ fun store beat _ => ?_
  obtain ⟨word, i⟩ := beat
  exact write_eq store (beatAddress burst.addressing address i beatBytes words.length) word
    beatBytes.toNat

section

variable {address : ℕ → Int} {count : ℕ}

theorem lastStored_beatWrites_concat (words : List Int) (word : Int) (place : ℕ) :
    lastStored (beatWrites address count (words ++ [word])) place =
      (lastStored (wordBytes (address words.length) word count) place).or
        (lastStored (beatWrites address count words) place) := by
  rw [beatWrites, List.zipIdx_append, List.flatMap_append, lastStored_append, Nat.zero_add]
  congr 1
  rw [List.zipIdx_singleton, List.flatMap_singleton]

/-- A cell that no beat covers is not stored. -/
theorem lastStored_beatWrites_eq_none {words : List Int} {place : ℕ}
    (apart : ∀ i < words.length, place ∉ cells (address i) count) :
    lastStored (beatWrites address count words) place = none := by
  induction words using List.reverseRecOn with
  | nil => rfl
  | append_singleton words word ih =>
    rw [List.length_append, List.length_singleton] at apart
    have last := apart words.length (Nat.lt_succ_self _)
    rw [lastStored_beatWrites_concat, lastStored_wordBytes_eq_none_iff.mpr last,
      ih fun i below => apart i (by omega)]
    rfl

/-- The bytes of a beat are those of its word if no later beat covers any of their cells. -/
theorem lastStored_beatWrites {words : List Int} {i j : ℕ} (inside : i < words.length)
    (low : j < count) (few : count ≤ 2 ^ 32)
    (kept : ∀ later, i < later → later < words.length →
      (cells (address i) count).Disjoint (cells (address later) count)) :
    lastStored (beatWrites address count words) (cell (address i + j)) =
      some (byteAt words[i] j) := by
  -- The last beat decides where it stores, so the induction is on the end of the words.
  induction words using List.reverseRecOn with
  | nil => cases inside
  | append_singleton words word ih =>
    rw [List.length_append, List.length_singleton] at inside kept
    rw [lastStored_beatWrites_concat]
    rcases Nat.lt_succ_iff_lt_or_eq.mp inside with earlier | rfl
    · have untouched : lastStored (wordBytes (address words.length) word count)
          (cell (address i + j)) = none := by
        rw [lastStored_wordBytes_eq_none_iff]
        exact kept words.length earlier (Nat.lt_succ_self _) (mem_cells_iff.mpr ⟨j, low, rfl⟩)
      rw [untouched, Option.none_or, List.getElem_append_left earlier]
      exact ih earlier fun later behind below => kept later behind (by omega)
    · rw [lastStored_wordBytes low few, Option.some_or, List.getElem_concat_length rfl]

variable (address) in
/-- A word that no later beat touches is read back, cut to the bytes of its beat. -/
theorem read_beatWrites (store : Store) {words : List Int} {i : ℕ} (inside : i < words.length)
    (few : count ≤ 2 ^ 32)
    (kept : ∀ later, i < later → later < words.length →
      (cells (address i) count).Disjoint (cells (address later) count)) :
    ((store.written (beatWrites address count words)).read (address i) count : Int) =
      words[i] % 256 ^ count := by
  refine read_of_bytes fun j low => ?_
  rw [byte_written_eq, lastStored_beatWrites inside low few kept, Option.getD_some]

end

/-! ## Beats apart -/

section

variable {mode : Addressing} {start bytes beats : ℕ}

theorem cells_beatAddress (index : ℕ) (power : ∃ k, bytes = 2 ^ k)
    (round : mode = .wrapping → ∃ m, beats = 2 ^ m) (count : ℕ) :
    cells (beatAddress mode start index bytes beats) count =
      cells (mode.place start index bytes beats) count := by
  obtain ⟨k, rfl⟩ := power
  rw [beatAddress_eq start index k round, cells_address32]

/-- The beats of a rising or wrapping burst cover different cells while they fit in the memory. Only
the first beat of an unaligned rising burst reaches into the second. -/
theorem disjoint_beats (moves : mode ≠ .fixed) (power : ∃ k, bytes = 2 ^ k)
    (round : mode = .wrapping → (∃ m, beats = 2 ^ m) ∧ beats * bytes ≤ 2 ^ 32) {index other : ℕ}
    (order : index < other) (last : other < beats) (turn : (other - index + 1) * bytes ≤ 2 ^ 32)
    (clear : mode = .wrapping ∨ bytes ∣ start ∨ index ≠ 0 ∨ other ≠ 1) :
    (cells (beatAddress mode start index bytes beats) bytes).Disjoint
      (cells (beatAddress mode start other bytes beats) bytes) := by
  have some : 0 < bytes := by
    obtain ⟨k, rfl⟩ := power
    exact Nat.two_pow_pos k
  rw [cells_beatAddress index power fun wrapping => (round wrapping).1,
    cells_beatAddress other power fun wrapping => (round wrapping).1]
  cases mode with
  | fixed => exact absurd rfl moves
  | rising =>
    have clear := clear.resolve_left (by decide)
    obtain ⟨behind, near⟩ := Addressing.place_rising_le beats some order clear
    exact disjoint_cells (by omega) (by omega)
  | wrapping =>
    have fits := (round rfl).2
    obtain ⟨lower, inside⟩ := Addressing.place_wrapping_mem start index bytes beats
    obtain ⟨bottom, within⟩ := Addressing.place_wrapping_mem start other bytes beats
    have inside := inside (by omega)
    have within := within (by omega)
    rcases Addressing.place_wrapping_le_or_le start bytes order last with behind | before
    · exact disjoint_cells (by omega) (by omega)
    · exact (disjoint_cells (by omega) (by omega)).symm

/-- A wrapping burst keeps to its container, moved up as far as its start is from a multiple of the
beat size. -/
theorem wrapping_beat_subset (power : ∃ k, bytes = 2 ^ k) (round : ∃ m, beats = 2 ^ m)
    (index : ℕ) :
    cells (beatAddress .wrapping start index bytes beats) bytes ⊆
      cells (start - start % (beats * bytes) + start % bytes : ℕ) (beats * bytes) := by
  have some : 0 < beats := by
    obtain ⟨m, rfl⟩ := round
    exact Nat.two_pow_pos m
  obtain ⟨lower, upper⟩ := Addressing.place_wrapping_mem start index bytes beats
  have upper := upper some
  rw [cells_beatAddress index power fun _ => round]
  exact cells_subset (by omega) (by omega)

end

end Store

end BusScript
