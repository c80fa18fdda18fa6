import Mathlib.Data.Int.ModEq
import BusScript.Memory.Image
import BusScript.Proofs.Memory.History

/-!
# Images in a memory

An image of four-byte words goes into a memory word by word, in the order of its places. A memory
has `2 ^ 30` places for words, so places that differ by a multiple of that are one place in it, and
the image word that comes last there is the one that stays, cut to four bytes (`Image.read_load`).
All words are read back as they stand in the image exactly if they are words of four bytes and none
is laid over another (`Image.Lasts`).
-/

namespace BusScript.Image

open Store

/-- The write of an image word. -/
def wordWrite (word : Int × Int) : Write :=
  ⟨word.1 * 4, word.2, 4⟩

/-- Places that are one place in the memory. -/
def SamePlace (index other : Int) : Prop :=
  index ≡ other [ZMOD 2 ^ 30]

instance (index other : Int) : Decidable (SamePlace index other) :=
  inferInstanceAs (Decidable (_ ≡ _ [ZMOD _]))

/-- The words of an image are words of four bytes, and those that go to one place are the same. -/
structure Lasts (image : Image) : Prop where
  fits : ∀ word ∈ image.words, 0 ≤ word.2 ∧ word.2 < 2 ^ 32
  apart : ∀ word ∈ image.words, ∀ other ∈ image.words,
    SamePlace word.1 other.1 → word.2 = other.2

theorem load_eq_writes (image : Image) (store : Store) :
    image.load 4 store = store.writes (image.words.map wordWrite) := by
  unfold load writes
  rw [List.foldl_map]
  rfl

/-! ## Texts -/

theorem map_fst_put (index value : Int) (placed : List (Int × Int)) :
    (put index value placed).map (·.1) =
      if index ∈ placed.map (·.1) then placed.map (·.1) else placed.map (·.1) ++ [index] := by
  induction placed with
  | nil => rfl
  | cons word rest ih =>
    obtain ⟨other, old⟩ := word
    unfold put
    by_cases same : other = index
    · subst same
      simp
    · rw [if_neg same, List.map_cons, ih]
      have elsewhere : index ≠ other := Ne.symm same
      by_cases member : index ∈ rest.map (·.1)
      · simp [member]
      · simp [member, elsewhere]

theorem nodup_put {index value : Int} {placed : List (Int × Int)}
    (distinct : (placed.map (·.1)).Nodup) : ((put index value placed).map (·.1)).Nodup := by
  rw [map_fst_put]
  split
  · exact distinct
  · rename_i fresh
    rw [← List.concat_eq_append]
    exact distinct.concat fresh

theorem nodup_lay {next : Int} {placed : List (Int × Int)} {items : List Item}
    (distinct : (placed.map (·.1)).Nodup) : ((lay next placed items).map (·.1)).Nodup := by
  fun_induction lay next placed items with
  | case1 next placed => exact distinct
  | case2 next placed index rest ih => exact ih distinct
  | case3 next placed value rest ih => exact ih (nodup_put distinct)

/-- An image has one word for a place at most. -/
theorem nodup_ofText {text : List Char} {image : Image} (accepted : ofText text = .ok image) :
    (image.words.map (·.1)).Nodup := by
  unfold ofText at accepted
  cases read : items text with
  | error fault =>
    rw [read] at accepted
    cases accepted
  | ok items =>
    rw [read] at accepted
    cases accepted
    exact nodup_lay List.nodup_nil

/-! ## Places -/

theorem covers_wordWrite {word : Int × Int} {index : Int} {offset : ℕ} (low : offset < 4)
    (same : SamePlace word.1 index) :
    (wordWrite word).Covers offset (cell (4 * index + offset)) := by
  have equal : word.1 % 2 ^ 30 = index % 2 ^ 30 := same
  refine ⟨low, ?_⟩
  rw [cell_eq_emod]
  show (word.1 * 4 + offset) % 2 ^ 32 = (4 * index + offset) % 2 ^ 32
  omega

theorem not_touches_wordWrite {word : Int × Int} {index : Int} {offset : ℕ} (low : offset < 4)
    (other : ¬SamePlace index word.1) :
    ¬(wordWrite word).Touches (cell (4 * index + offset)) := by
  rintro ⟨j, small, here⟩
  have small : j < 4 := small
  have here : (word.1 * 4 + j) % 2 ^ 32 = cell (4 * index + offset) := here
  rw [cell_eq_emod] at here
  apply other
  show index % 2 ^ 30 = word.1 % 2 ^ 30
  omega

theorem read_congr (store : Store) {index other : Int} (same : SamePlace index other) :
    store.read (4 * index) 4 = store.read (4 * other) 4 := by
  have equal : index % 2 ^ 30 = other % 2 ^ 30 := same
  have address : 4 * index % 2 ^ 32 = 4 * other % 2 ^ 32 := by omega
  rw [← read_emod, address, read_emod]

/-! ## Words -/

variable {image : Image} {store : Store}

/-- What is read at a place is the word that comes last there, cut to four bytes. -/
theorem read_load {front behind : List (Int × Int)} {word : Int × Int}
    (split : image.words = front ++ word :: behind) {index : Int} (here : SamePlace word.1 index)
    (last : ∀ later ∈ behind, ¬SamePlace index later.1) :
    ((image.load 4 store).read (4 * index) 4 : Int) = word.2 % 2 ^ 32 := by
  rw [load_eq_writes, split, List.map_append, List.map_cons]
  refine read_of_bytes fun offset low => ?_
  have few : (wordWrite word).count ≤ 2 ^ 32 := by
    show 4 ≤ 2 ^ 32
    decide
  refine byte_writes_of_covers store few (covers_wordWrite low here) fun later member => ?_
  obtain ⟨other, behind, rfl⟩ := List.mem_map.mp member
  exact not_touches_wordWrite low (last other behind)

/-- No byte beside the words of the image is changed. -/
theorem byte_load {address : Int}
    (beside : ∀ word ∈ image.words, ∀ offset : ℕ, offset < 4 →
      (4 * word.1 + offset) % 2 ^ 32 ≠ address % 2 ^ 32) :
    (image.load 4 store).byte address = store.byte address := by
  rw [load_eq_writes]
  apply byte_writes_of_untouched
  rintro write member ⟨offset, low, here⟩
  obtain ⟨word, inside, rfl⟩ := List.mem_map.mp member
  apply beside word inside offset low
  rw [cell_eq_emod] at here
  rw [← here, Int.mul_comm]
  rfl

/-- All words are read back exactly if they fit and none is laid over another. -/
theorem read_load_iff_lasts :
    (∀ word ∈ image.words, ((image.load 4 store).read (4 * word.1) 4 : Int) = word.2) ↔
      image.Lasts := by
  constructor
  · intro back
    refine ⟨fun word member => ?_, fun word member other behind same => ?_⟩
    · have below := read_lt (image.load 4 store) (4 * word.1) 4
      have found := back word member
      omega
    · rw [← back word member, ← back other behind, read_congr _ same]
  · intro lasts word member
    have self : ∃ other ∈ image.words, SamePlace word.1 other.1 := ⟨word, member, Int.ModEq.refl _⟩
    obtain ⟨front, last, behind, split, same, final⟩ := exists_last self
    have inside : last ∈ image.words := by
      rw [split]
      exact List.mem_append_right _ List.mem_cons_self
    obtain ⟨nonneg, below⟩ := lasts.fits last inside
    rw [read_load split same.symm final, Int.emod_eq_of_lt nonneg below]
    exact (lasts.apart word member last inside same).symm

end BusScript.Image
