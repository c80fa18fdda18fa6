import Mathlib.Algebra.Order.Ring.Int
import Mathlib.Data.List.Induction
import Mathlib.Data.List.Nodup
import Mathlib.Tactic.Positivity
import Mathlib.Tactic.Ring
import BusScript.Memory.Transfer

/-!
# Stores of single bytes

Everything that is written to a memory comes down to a sequence of bytes, each with the cell it goes
to. A byte of the memory is the one that was stored in its cell last (`lastStored`), and a number
that is read is made of such bytes.
-/

namespace BusScript

/-! ## Bytes of numbers -/

theorem byteAt_natCast (n place : Nat) :
    byteAt (n : Int) place = UInt8.ofNat (n / 256 ^ place % 256) := by
  unfold byteAt
  have power : Int.pow 256 place = ((256 ^ place : Nat) : Int) := (Int.natCast_pow 256 place).symm
  have digit : ((n / 256 ^ place : Nat) : Int) % 256 = (n / 256 ^ place % 256 : Nat) := rfl
  rw [power, ← Int.natCast_ediv, digit, Int.toNat_natCast]

theorem toNat_byteAt (value : Int) (place : Nat) :
    ((byteAt value place).toNat : Int) = value / 256 ^ place % 256 := by
  have power : Int.pow 256 place = (256 : Int) ^ place := rfl
  unfold byteAt
  rw [power, UInt8.toNat_ofNat']
  omega

/-- The bytes of a number that bytes make are these bytes. -/
theorem byteAt_ofBytes {bytes : List UInt8} {place : Nat} (inside : place < bytes.length) :
    byteAt (ofBytes bytes) place = bytes[place] := by
  rw [byteAt_natCast]
  induction bytes generalizing place with
  | nil => cases inside
  | cons byte rest ih =>
    have small : byte.toNat < 256 := byte.toNat_lt
    cases place with
    | zero =>
      have lowest : ofBytes (byte :: rest) / 256 ^ 0 % 256 = byte.toNat := by
        rw [ofBytes, Nat.pow_zero, Nat.div_one]
        omega
      rw [lowest, List.getElem_cons_zero, UInt8.ofNat_toNat]
    | succ place =>
      have higher : ofBytes (byte :: rest) / 256 ^ (place + 1) = ofBytes rest / 256 ^ place := by
        rw [Nat.pow_succ', ← Nat.div_div_eq_div_mul, ofBytes]
        congr 1
        omega
      rw [higher, List.getElem_cons_succ]
      exact ih (Nat.lt_of_succ_lt_succ inside)

theorem ofBytes_lt (bytes : List UInt8) : ofBytes bytes < 256 ^ bytes.length := by
  induction bytes with
  | nil => decide
  | cons byte rest ih =>
    have small : byte.toNat < 256 := byte.toNat_lt
    rw [ofBytes, List.length_cons, Nat.pow_succ]
    omega

theorem ofBytes_append (first later : List UInt8) :
    ofBytes (first ++ later) = ofBytes first + 256 ^ first.length * ofBytes later := by
  induction first with
  | nil => rw [List.nil_append, ofBytes, List.length_nil]; omega
  | cons byte rest ih =>
    rw [List.cons_append, ofBytes, ih, ofBytes, List.length_cons]
    ring

/-- The lowest bytes of an integer make its remainder. -/
theorem ofBytes_byteAt (value : Int) (count : Nat) :
    (ofBytes ((List.range count).map (byteAt value ·)) : Int) = value % 256 ^ count := by
  induction count with
  | zero => rw [Int.pow_zero, Int.emod_one]; rfl
  | succ count ih =>
    have split : value % 256 ^ (count + 1) =
        value % 256 ^ count + 256 ^ count * (value / 256 ^ count % 256) := by
      rw [Int.emod_def, Int.emod_def value, Int.emod_def (_ / _), Int.pow_succ,
        ← Int.ediv_ediv_of_nonneg (by positivity)]
      ring
    rw [List.range_succ, List.map_append, ofBytes_append, split, ← toNat_byteAt, ← ih]
    simp [ofBytes]

/-! ## Sequences of stores -/

/-- The byte that was stored in a cell last. -/
def lastStored (writes : List (Nat × UInt8)) (cell : Nat) : Option UInt8 :=
  (writes.reverse.find? fun write => write.1 = cell).map (·.2)

theorem lastStored_concat (writes : List (Nat × UInt8)) (write : Nat × UInt8) (cell : Nat) :
    lastStored (writes ++ [write]) cell =
      if write.1 = cell then some write.2 else lastStored writes cell := by
  unfold lastStored
  rw [List.reverse_append, List.reverse_singleton, List.singleton_append, List.find?_cons]
  by_cases here : write.1 = cell
  · simp [here]
  · simp [here]

theorem lastStored_append (first later : List (Nat × UInt8)) (cell : Nat) :
    lastStored (first ++ later) cell = (lastStored later cell).or (lastStored first cell) := by
  unfold lastStored
  rw [List.reverse_append, List.find?_append, Option.map_or]

theorem lastStored_eq_none_iff {writes : List (Nat × UInt8)} {cell : Nat} :
    lastStored writes cell = none ↔ cell ∉ writes.map (·.1) := by
  simp only [lastStored, Option.map_eq_none_iff, List.find?_eq_none, List.mem_reverse,
    decide_eq_true_eq, List.mem_map, not_exists, not_and]

/-- Where no cell is stored twice, each store lasts. -/
theorem lastStored_of_mem {writes : List (Nat × UInt8)} {write : Nat × UInt8}
    (distinct : (writes.map (·.1)).Nodup) (member : write ∈ writes) :
    lastStored writes write.1 = some write.2 := by
  induction writes using List.reverseRecOn with
  | nil => cases member
  | append_singleton writes last ih =>
    rw [List.map_append, List.nodup_append] at distinct
    obtain ⟨distinct, -, apart⟩ := distinct
    rw [lastStored_concat]
    rcases List.mem_append.mp member with earlier | here
    · have other := apart write.1 (List.mem_map_of_mem earlier) last.1 List.mem_cons_self
      rw [if_neg (Ne.symm other), ih distinct earlier]
    · rw [List.mem_singleton.mp here, if_pos rfl]

namespace Store

/-- The store with bytes written to their cells, one after the other. -/
def written (store : Store) (writes : List (Nat × UInt8)) : Store :=
  writes.foldl (fun store (cell, byte) =>
    { store with bytes := store.bytes.insert cell byte }) store

theorem written_append (store : Store) (first later : List (Nat × UInt8)) :
    store.written (first ++ later) = (store.written first).written later :=
  List.foldl_append

theorem fill_written (store : Store) (writes : List (Nat × UInt8)) :
    (store.written writes).fill = store.fill := by
  induction writes using List.reverseRecOn with
  | nil => rfl
  | append_singleton writes write ih => rw [written_append]; exact ih

theorem getElem?_written (store : Store) (writes : List (Nat × UInt8)) (cell : Nat) :
    (store.written writes).bytes[cell]? = (lastStored writes cell).or store.bytes[cell]? := by
  -- The last store decides, so the induction is on the end of the sequence.
  induction writes using List.reverseRecOn with
  | nil => rfl
  | append_singleton writes write ih =>
    rw [written_append, lastStored_concat]
    show ((store.written writes).bytes.insert write.1 write.2)[cell]? = _
    rw [Std.TreeMap.getElem?_insert]
    by_cases here : write.1 = cell
    · simp [here]
    · simp [here, ih]

/-- A byte is the one stored last, or as it was before. -/
theorem byte_written_eq (store : Store) (writes : List (Nat × UInt8)) (address : Int) :
    (store.written writes).byte address =
      (lastStored writes (cell address)).getD (store.byte address) := by
  unfold byte
  rw [getElem?_written, fill_written]
  cases lastStored writes (cell address) with
  | none => rfl
  | some byte => rfl

/-- A byte of a store that starts empty is the one stored last, or the fill. -/
theorem byte_written (writes : List (Nat × UInt8)) (address : Int) :
    (written {} writes).byte address = (lastStored writes (cell address)).getD 0 :=
  byte_written_eq {} writes address

end Store

/-! ## Words -/

/-- The bytes of a word, lowest first, under the cells from an address on. -/
def wordBytes (address value : Int) (count : Nat) : List (Nat × UInt8) :=
  (List.range count).map fun (i : Nat) => (Store.cell (address + i), byteAt value i)

namespace Store

theorem write_eq (store : Store) (address value : Int) (count : Nat) :
    store.write address value count = store.written (wordBytes address value count) := by
  unfold write written wordBytes
  rw [List.foldl_map]
  rfl

theorem byteAt_read (store : Store) (address : Int) {count place : Nat} (inside : place < count) :
    byteAt (store.read address count) place = store.byte (address + place) := by
  unfold read
  rw [byteAt_ofBytes (by rw [List.length_map, List.length_range]; exact inside), List.getElem_map,
    List.getElem_range]

theorem read_lt (store : Store) (address : Int) (count : Nat) :
    store.read address count < 256 ^ count := by
  have bound := ofBytes_lt ((List.range count).map fun (i : Nat) => store.byte (address + i))
  rwa [List.length_map, List.length_range] at bound

/-- A number is read back from its bytes. -/
theorem read_of_bytes {store : Store} {address value : Int} {count : Nat}
    (bytes : ∀ i < count, store.byte (address + i) = byteAt value i) :
    (store.read address count : Int) = value % 256 ^ count := by
  have same : ((List.range count).map fun (i : Nat) => store.byte (address + i)) =
      (List.range count).map (byteAt value ·) :=
    List.map_congr_left fun i low => bytes i (List.mem_range.mp low)
  rw [read, same, ofBytes_byteAt]

theorem cell_address32_add (address offset : Int) :
    cell (address32 address + offset) = cell (address + offset) := by
  unfold cell address32
  rw [Int.emod_add_emod]

end Store

theorem wordBytes_address32 (address value : Int) (count : Nat) :
    wordBytes (address32 address) value count = wordBytes address value count := by
  unfold wordBytes
  simp only [Store.cell_address32_add]

end BusScript
