import Mathlib.Algebra.BigOperators.Ring.Finset
import Mathlib.Data.Set.Card
import BusScript.Proofs.Memory.Beats

/-!
# Histories of writes

What a memory holds after any number of writes. A write covers places one after the other, past the
last place of the memory to the first. A byte is that of the last write that covers its place, or
the fill where there is none (`LastByte`); the places that were covered are those that count for the
size; and a number that is read is the sum of its bytes, each shifted to its place.
-/

namespace BusScript.Store

/-! ## Writes -/

/-- A write of the lowest `count` bytes of a value from an address on. -/
structure Write where
  address : Int
  value : Int
  count : ℕ
  deriving DecidableEq, Repr

/-- The store after writes, one after the other. -/
def writes (store : Store) (history : List Write) : Store :=
  history.foldl (fun store write => store.write write.address write.value write.count) store

/-- The byte of a write at an offset goes to a place. -/
def Write.Covers (write : Write) (offset place : ℕ) : Prop :=
  offset < write.count ∧ (write.address + offset) % 2 ^ 32 = place

/-- Some byte of a write goes to a place. -/
def Write.Touches (write : Write) (place : ℕ) : Prop :=
  ∃ offset, write.Covers offset place

/-- The byte at a place after writes to a memory of bytes that all are the lowest of `fill`. -/
inductive LastByte (fill : Int) (history : List Write) (place : ℕ) : Int → Prop
  /-- The last write that touches the place decides. -/
  | written (before after : List Write) {write : Write} {offset : ℕ}
      (split : history = before ++ write :: after) (covers : write.Covers offset place)
      (kept : ∀ later ∈ after, ¬later.Touches place) :
    LastByte fill history place (write.value / 256 ^ offset % 256)
  | untouched (never : ∀ write ∈ history, ¬write.Touches place) :
    LastByte fill history place (fill % 256)

theorem writes_append (store : Store) (before after : List Write) :
    store.writes (before ++ after) = (store.writes before).writes after :=
  List.foldl_append

theorem writes_cons (store : Store) (write : Write) (after : List Write) :
    store.writes (write :: after) =
      (store.write write.address write.value write.count).writes after :=
  rfl

theorem Write.touches_iff {write : Write} {place : ℕ} :
    write.Touches place ↔ place ∈ cells write.address write.count := by
  have same (offset : ℕ) : (write.address + offset) % 2 ^ 32 = (place : Int) ↔
      cell (write.address + offset) = place := by
    rw [← cell_eq_emod, Int.natCast_inj]
  simp only [Touches, Covers, same, mem_cells_iff]

instance (write : Write) (place : ℕ) : Decidable (write.Touches place) :=
  decidable_of_iff' _ Write.touches_iff

/-! ## Bytes -/

/-- The memory ends where its addresses do, and goes on at its beginning. -/
theorem byte_emod (store : Store) (address : Int) :
    store.byte (address % 2 ^ 32) = store.byte address := by
  have same : cell (address % 2 ^ 32) = cell address := by
    rw [← Int.natCast_inj, cell_eq_emod, cell_eq_emod, Int.emod_emod]
  rw [byte, same, byte]

theorem read_emod (store : Store) (address : Int) (count : ℕ) :
    store.read (address % 2 ^ 32) count = store.read address count := by
  unfold read
  congr 1
  refine List.map_congr_left fun i _ => ?_
  rw [← byte_emod, Int.emod_add_emod, byte_emod]

theorem byte_filled (fill address : Int) : (filled fill).byte address = byteAt fill 0 := by
  simp [byte, filled]

/-- A write changes no place that it does not touch. -/
theorem byte_write_of_untouched (store : Store) {write : Write} {address : Int}
    (never : ¬write.Touches (cell address)) :
    (store.write write.address write.value write.count).byte address = store.byte address := by
  rw [Write.touches_iff, ← lastStored_wordBytes_eq_none_iff] at never
  rw [write_eq, byte_written_eq, never, Option.getD_none]

theorem byte_write_of_covers (store : Store) {write : Write} {offset : ℕ} {address : Int}
    (few : write.count ≤ 2 ^ 32) (covers : write.Covers offset (cell address)) :
    (store.write write.address write.value write.count).byte address =
      byteAt write.value offset := by
  obtain ⟨low, here⟩ := covers
  rw [← cell_eq_emod, Int.natCast_inj] at here
  rw [write_eq, byte_written_eq, ← here, lastStored_wordBytes low few, Option.getD_some]

theorem byte_writes_of_untouched (store : Store) {history : List Write} {address : Int}
    (never : ∀ write ∈ history, ¬write.Touches (cell address)) :
    (store.writes history).byte address = store.byte address := by
  induction history generalizing store with
  | nil => rfl
  | cons write after ih =>
    rw [writes_cons, ih _ fun later member => never later (List.mem_cons_of_mem _ member)]
    exact byte_write_of_untouched store (never write List.mem_cons_self)

/-- A byte of a write stays until a later write touches its place. -/
theorem byte_writes_of_covers (store : Store) {before after : List Write} {write : Write}
    {offset : ℕ} {address : Int} (few : write.count ≤ 2 ^ 32)
    (covers : write.Covers offset (cell address))
    (kept : ∀ later ∈ after, ¬later.Touches (cell address)) :
    (store.writes (before ++ write :: after)).byte address = byteAt write.value offset := by
  rw [writes_append, writes_cons, byte_writes_of_untouched _ kept]
  exact byte_write_of_covers _ few covers

/-- Where something in a list passes a test, something is the last to do so. -/
theorem exists_last {α : Type} {P : α → Prop} {list : List α} (some : ∃ a ∈ list, P a) :
    ∃ front last behind, list = front ++ last :: behind ∧ P last ∧ ∀ later ∈ behind, ¬P later := by
  induction list with
  | nil =>
    obtain ⟨a, member, -⟩ := some
    cases member
  | cons head tail ih =>
    by_cases later : ∃ a ∈ tail, P a
    · obtain ⟨front, last, behind, rfl, passes, final⟩ := ih later
      exact ⟨head :: front, last, behind, rfl, passes, final⟩
    · obtain ⟨a, member, passes⟩ := some
      rcases List.mem_cons.mp member with rfl | inside
      · exact ⟨[], a, tail, rfl, passes, fun b behind passed => later ⟨b, behind, passed⟩⟩
      · exact absurd ⟨a, inside, passes⟩ later

theorem exists_lastByte (fill : Int) (history : List Write) (place : ℕ) :
    ∃ byte, LastByte fill history place byte := by
  by_cases touched : ∃ write ∈ history, write.Touches place
  · obtain ⟨before, write, after, split, ⟨offset, covers⟩, kept⟩ := exists_last touched
    exact ⟨_, .written before after split covers kept⟩
  · exact ⟨_, .untouched fun write member touches => touched ⟨write, member, touches⟩⟩

/-- The byte at a place is the last one, and no other is. -/
theorem lastByte_iff (fill : Int) {history : List Write}
    (few : ∀ write ∈ history, write.count ≤ 2 ^ 32) (address value : Int) :
    LastByte fill history (cell address) value ↔
      value = (((filled fill).writes history).byte address).toNat := by
  have found {value : Int} (last : LastByte fill history (cell address) value) :
      value = (((filled fill).writes history).byte address).toNat := by
    cases last with
    | written before after split covers kept =>
      subst split
      have short := few _ (List.mem_append_right _ List.mem_cons_self)
      rw [byte_writes_of_covers _ short covers kept, toNat_byteAt]
    | untouched never =>
      rw [byte_writes_of_untouched _ never, byte_filled, toNat_byteAt, Int.pow_zero, Int.ediv_one]
  constructor
  · exact found
  · rintro rfl
    obtain ⟨byte, last⟩ := exists_lastByte fill history (cell address)
    rw [← found last]
    exact last

/-! ## Size -/

theorem mem_write_iff {store : Store} {write : Write} {place : ℕ} :
    place ∈ (store.write write.address write.value write.count).bytes ↔
      place ∈ store.bytes ∨ write.Touches place := by
  have stored : (lastStored (wordBytes write.address write.value write.count) place).isSome = true ↔
      write.Touches place := by
    rw [Option.isSome_iff_ne_none, Ne, lastStored_wordBytes_eq_none_iff, not_not,
      Write.touches_iff]
  rw [Std.TreeMap.mem_iff_isSome_getElem?, Std.TreeMap.mem_iff_isSome_getElem?, write_eq,
    getElem?_written, Option.isSome_or, Bool.or_eq_true, or_comm, stored]

theorem mem_writes_iff {store : Store} {history : List Write} {place : ℕ} :
    place ∈ (store.writes history).bytes ↔
      place ∈ store.bytes ∨ ∃ write ∈ history, write.Touches place := by
  induction history generalizing store with
  | nil => simp [writes]
  | cons write after ih =>
    rw [writes_cons, ih, mem_write_iff, List.exists_mem_cons_iff, or_assoc]

/-- The size is the number of places that were touched. -/
theorem size_writes (fill : Int) (history : List Write) :
    ((filled fill).writes history).size =
      Set.ncard {place : ℕ | ∃ write ∈ history, write.Touches place} := by
  have places : {place : ℕ | ∃ write ∈ history, write.Touches place} =
      (((filled fill).writes history).bytes.keys.toFinset : Set ℕ) := by
    ext place
    rw [Set.mem_ofPred_eq, Finset.mem_coe, List.mem_toFinset, Std.TreeMap.mem_keys, mem_writes_iff]
    simp [filled]
  rw [places, Set.ncard_coe_finset, List.toFinset_card_of_nodup Std.TreeMap.nodup_keys,
    Std.TreeMap.length_keys, size]

/-! ## Numbers -/

/-- What is read is what is read from its two parts, the later one being the higher. -/
theorem read_add (store : Store) (address : Int) (low high : ℕ) :
    store.read address (low + high) =
      store.read address low + store.read (address + low) high * 256 ^ low := by
  unfold read
  rw [List.range_add, List.map_append, ofBytes_append, List.length_map, List.length_range,
    List.map_map, Nat.mul_comm]
  congr 3
  refine List.map_congr_left fun i _ => ?_
  rw [Function.comp_apply, Nat.cast_add, Int.add_assoc]

theorem read_one (store : Store) (address : Int) :
    store.read address 1 = (store.byte address).toNat := by
  simp [read, ofBytes]

theorem read_eq_sum (store : Store) (address : Int) (count : ℕ) :
    store.read address count =
      ∑ i ∈ Finset.range count, (store.byte (address + i)).toNat * 256 ^ i := by
  induction count with
  | zero => rfl
  | succ count ih => rw [Finset.sum_range_succ, ← ih, read_add, read_one]

/-- What is read is made of words of one size, the later ones being the higher. -/
theorem read_mul (store : Store) (address : Int) (size count : ℕ) :
    store.read address (size * count) =
      ∑ i ∈ Finset.range count, store.read (address + (size * i : ℕ)) size * 256 ^ (size * i) := by
  induction count with
  | zero => rfl
  | succ count ih => rw [Finset.sum_range_succ, ← ih, Nat.mul_succ, read_add]

/-- After any writes to a memory of one fill, a number that is read is the sum of the last bytes of
its places, each times its power of 256; the size counts the places that were touched; and a read of
several words, such as a beat of a wide bus, is put together from reads of its words. -/
theorem read_after_writes (fill : Int) (history : List Write)
    (few : ∀ write ∈ history, write.count ≤ 2 ^ 32) :
    let store := (filled fill).writes history
    (∃ bytes : ℕ → Int,
      (∀ place < 2 ^ 32, ∀ value, LastByte fill history place value ↔ value = bytes place) ∧
      ∀ (address : Int) (count : ℕ), (store.read address count : Int) =
        ∑ i ∈ Finset.range count, bytes ((address + i) % 2 ^ 32).toNat * 256 ^ i) ∧
    store.size = Set.ncard {place : ℕ | ∃ write ∈ history, write.Touches place} ∧
    (∀ (address : Int) (low high : ℕ), store.read address (low + high) =
      store.read address low + store.read (address + low) high * 256 ^ low) ∧
    ∀ (address : Int) (width : AxiWidth), store.read address (width.bits / 8) =
      ∑ i ∈ Finset.range (width.bits / ahbWidth),
        store.read (address + (AhbSize.word.bytes * i : ℕ)) AhbSize.word.bytes *
          2 ^ (ahbWidth * i) := by
  intro store
  refine ⟨⟨fun place => (store.byte place).toNat, fun place below value => ?_, ?_⟩,
    size_writes fill history, store.read_add, fun address width => ?_⟩
  · have here : cell place = place := by
      have same := cell_eq_emod place
      omega
    rw [← lastByte_iff fill few, here]
  · intro address count
    have bytes (i : ℕ) : store.byte ((address + i) % 2 ^ 32).toNat = store.byte (address + i) := by
      have nonneg : 0 ≤ (address + i) % 2 ^ 32 := by omega
      rw [Int.toNat_of_nonneg nonneg, byte_emod]
    simp only [bytes]
    rw [read_eq_sum]
    push_cast
    rfl
  · have words : width.bits / 8 = AhbSize.word.bytes * (width.bits / ahbWidth) := by
      cases width <;> rfl
    have power (i : ℕ) : 256 ^ (AhbSize.word.bytes * i) = 2 ^ (ahbWidth * i) := by
      rw [Nat.pow_mul, Nat.pow_mul]
      rfl
    simp only [words, read_mul, power]

/-- Two writes to a memory of ones. The first goes past the end of the memory, and the second goes
over its third byte. -/
theorem read_after_overlapping_writes :
    let history : List Write := [⟨-2, 0x11223344, 4⟩, ⟨0, -2, 1⟩]
    (∀ write ∈ history, write.count ≤ 2 ^ 32) ∧
      ((filled (-1)).writes history).read (-1) 4 = 0xFF11FE33 := by
  intro history
  have few : ∀ write ∈ history, write.count ≤ 2 ^ 32 := by decide
  obtain ⟨⟨bytes, last, read⟩, -⟩ := read_after_writes (-1) history few
  have first {place : ℕ} (offset : ℕ) (covers : Write.Covers ⟨-2, 0x11223344, 4⟩ offset place)
      (kept : ∀ later ∈ [(⟨0, -2, 1⟩ : Write)], ¬later.Touches place) :
      LastByte (-1) history place (0x11223344 / 256 ^ offset % 256) :=
    .written [] _ rfl covers kept
  have second : LastByte (-1) history 0 (-2 / 256 ^ 0 % 256) :=
    .written [⟨-2, 0x11223344, 4⟩] [] rfl ⟨by decide, by decide⟩ (List.forall_mem_nil _)
  have top := (last 0xFFFFFFFF (by decide) _).mp
    (first 1 ⟨by decide, by decide⟩ (by decide))
  have bottom := (last 0 (by decide) _).mp second
  have next := (last 1 (by decide) _).mp
    (first 3 ⟨by decide, by decide⟩ (by decide))
  have beyond := (last 2 (by decide) _).mp (.untouched (by decide))
  refine ⟨few, ?_⟩
  have sum : (((filled (-1)).writes history).read (-1) 4 : Int) =
      bytes 0xFFFFFFFF + bytes 0 * 256 + bytes 1 * 256 ^ 2 + bytes 2 * 256 ^ 3 := by
    simpa [Finset.sum_range_succ] using read (-1) 4
  rw [← top, ← bottom, ← next, ← beyond] at sum
  exact Int.natCast_inj.mp (sum.trans (by decide))

end BusScript.Store
