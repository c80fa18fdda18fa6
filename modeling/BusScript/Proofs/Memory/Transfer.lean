import BusScript.Proofs.Command.WellFormed
import BusScript.Proofs.Memory.Stores

/-!
# What transactions do to a memory

A write stores the bytes of its words beat by beat (`Transaction.stores`), and a read observes what
was stored last (`Transaction.Observes`). A memory sees a transfer as a burst, a start address and
the bytes of one beat. For a well-formed transaction these give the beats the same addresses as the
transaction itself does.
-/

namespace BusScript

open Store

namespace Transaction

/-- The bytes of a word that beat `i` moves. -/
def beatStores (t : Transaction) (word : Int) (i : Nat) : List (Nat × UInt8) :=
  wordBytes (t.beatAddress i) word t.beatBytes.toNat

/-- The bytes that a transaction stores, in their order. A single AHB write stores its word at its
address, a single AXI write the same word on every beat. -/
def stores (t : Transaction) : List (Nat × UInt8) :=
  match t.operation, t.bus with
  | .write, .ahb => wordBytes t.address t.payloadWord t.beatBytes.toNat
  | .write, .axi => (List.range t.beats.toNat).flatMap (t.beatStores t.payloadWord)
  | .burstWrite, _ => t.payloadBeats.zipIdx.flatMap fun (word, i) => t.beatStores word i
  | _, _ => []

/-- There is one word for every beat of a read, made of the bytes that were stored last at the
address of the beat and behind it, or of zeros. -/
structure Observes (t : Transaction) (writes : List (Nat × UInt8)) (words : List Int) : Prop where
  count : (words.length : Int) = t.beats
  fits : ∀ word ∈ words, 0 ≤ word ∧ word < 256 ^ t.beatBytes.toNat
  bytes : ∀ (i : Nat) (inside : i < words.length) (j : Nat), j < t.beatBytes →
    byteAt words[i] j = (lastStored writes (cell (t.beatAddress i + j))).getD 0

/-! ## Geometry -/

variable {t : Transaction} {grammar : Grammar} {line : Option Int}

theorem WellFormed.size_eq_none (formed : t.WellFormed grammar line) (bus : t.bus = .axi) :
    t.size = none := by
  have size := formed.size
  rw [bus] at size
  simpa using size

/-- A memory moves as many bytes on each beat as the transaction says. -/
theorem WellFormed.beatBytes?_eq (formed : t.WellFormed grammar line) {shape : Shape}
    (given : shape = t.shape ∨ shape = .size t.size) :
    t.burst.beatBytes? grammar.axiWidth.bits shape = some t.beatBytes := by
  have width := formed.width
  cases burst : t.burst with
  | ahb kind =>
    have bus : t.bus = .ahb := by rw [bus, burst, Burst.bus]
    obtain ⟨size, sized⟩ := Option.isSome_iff_exists.mp (formed.size.mpr bus)
    have shaped : shape = .size (some size) := by
      rcases given with own | plain
      · rw [own, Transaction.shape, bus, sized]
      · rw [plain, sized]
    rw [shaped, beatBytes, sized]
    rfl
  | axi kind =>
    have bus : t.bus = .axi := by rw [bus, burst, Burst.bus]
    rw [bus] at width
    rw [beatBytes, formed.size_eq_none bus, width]
    rfl

theorem WellFormed.beats_pos (formed : t.WellFormed grammar line) : 1 ≤ t.beats := by
  have geometry := formed.geometry
  unfold GeometryFits at geometry
  unfold beats at geometry ⊢
  split at geometry
  · exact geometry.1
  · exact geometry.1
  · omega
  · omega

theorem WellFormed.beats_eq_one (formed : t.WellFormed grammar line) (bus : t.bus = .ahb)
    (single : t.operation = .write ∨ t.operation = .read) : t.beats = 1 := by
  have geometry := formed.geometry
  unfold GeometryFits at geometry
  cases burst : t.burst with
  | axi kind =>
    rw [Transaction.bus, burst] at bus
    cases bus
  | ahb kind =>
    rw [burst] at geometry
    have length : t.length = 0 := by
      rcases single with write | read
      · rwa [write] at geometry
      · rwa [read] at geometry
    rw [beats, length]
    rfl

/-! ## Writes -/

/-- The words that the beats of a write bring. -/
def writtenWords (t : Transaction) : List Int :=
  if t.operation = .write then List.replicate t.beats.toNat t.payloadWord else t.payloadBeats

theorem zipIdx_replicate_flatMap {α : Type} (count : Nat) (word : Int) (f : Int → Nat → List α) :
    ((List.replicate count word).zipIdx.flatMap fun (word, i) => f word i) =
      (List.range count).flatMap (f word) := by
  induction count with
  | zero => rfl
  | succ count ih =>
    rw [List.replicate_succ', List.zipIdx_append, List.flatMap_append, ih, List.range_succ,
      List.flatMap_append, List.length_replicate, Nat.zero_add]
    rfl

theorem WellFormed.length_writtenWords (formed : t.WellFormed grammar line)
    (writes : t.operation = .write ∨ t.operation = .burstWrite) :
    (t.writtenWords.length : Int) = t.beats := by
  have some := formed.beats_pos
  rcases writes with single | burst
  · rw [writtenWords, if_pos single, List.length_replicate]
    omega
  · have payload := formed.payload
    rw [PayloadFits, burst] at payload
    rw [writtenWords, burst, if_neg (by decide), payloadBeats]
    cases given : t.payload with
    | none =>
      rw [given] at payload
      exact payload.elim
    | some data =>
      rw [given] at payload
      cases data with
      | word value => exact payload.elim
      | beats values => exact payload.1

/-- The bytes of the words, beat by beat, are those that the transaction stores. -/
theorem WellFormed.stores_eq (formed : t.WellFormed grammar line)
    (writes : t.operation = .write ∨ t.operation = .burstWrite) :
    (t.writtenWords.zipIdx.flatMap fun (word, i) => t.beatStores word i) = t.stores := by
  rcases writes with single | burst
  · rw [writtenWords, if_pos single, zipIdx_replicate_flatMap, stores, single]
    cases bus : t.bus with
    | axi => rfl
    | ahb =>
      have first : t.beatAddress 0 = address32 t.address := if_pos (.inr rfl)
      rw [formed.beats_eq_one bus (.inl single)]
      show t.beatStores t.payloadWord 0 ++ [] = wordBytes t.address t.payloadWord t.beatBytes.toNat
      rw [List.append_nil, beatStores, first, wordBytes_address32]
  · rw [writtenWords, stores, burst, if_neg (by decide)]

theorem WellFormed.writeBeats_eq (formed : t.WellFormed grammar line)
    (writes : t.operation = .write ∨ t.operation = .burstWrite) (store : Store) :
    store.writeBeats t.burst t.address t.beatBytes t.writtenWords = store.written t.stores := by
  rw [← formed.stores_eq writes, written, List.foldl_flatMap, writeBeats,
    formed.length_writtenWords writes]
  refine List.foldl_ext _ _ _ fun store beat _ => ?_
  obtain ⟨word, i⟩ := beat
  exact write_eq store (t.beatAddress i) word t.beatBytes.toNat

theorem stores_eq_nil (reads : t.isRead) : t.stores = [] := by
  unfold isRead at reads
  unfold stores
  cases operation : t.operation with
  | read => rfl
  | burstRead => rfl
  | poll => rfl
  | _ => simp [operation] at reads

/-! ## Reads -/

/-- What is read from a memory is what was stored there last. -/
theorem WellFormed.observes_readBeats (formed : t.WellFormed grammar line)
    (writes : List (Nat × UInt8)) :
    t.Observes writes
      ((written {} writes).readBeats t.burst t.address t.beatBytes t.beats.toNat) := by
  have some := formed.beats_pos
  have beats : ((t.beats.toNat : Nat) : Int) = t.beats := by omega
  constructor
  · rw [readBeats, List.length_map, List.length_range, beats]
  · intro word member
    obtain ⟨i, -, rfl⟩ := List.mem_map.mp member
    have below := Int.ofNat_lt.mpr (read_lt (written {} writes)
      (BusScript.beatAddress t.burst.addressing t.address i t.beatBytes t.beats.toNat)
      t.beatBytes.toNat)
    rw [Int.natCast_pow] at below
    exact ⟨Int.natCast_nonneg _, below⟩
  · intro i inside j low
    have same : BusScript.beatAddress t.burst.addressing t.address i t.beatBytes t.beats.toNat =
        t.beatAddress i := by rw [beats, beatAddress]
    simp only [readBeats, List.getElem_map, List.getElem_range]
    rw [byteAt_read _ _ (by omega), same, byte_written]

end Transaction

end BusScript
