import BusScript.Proofs.Bench.Bursts
import Mathlib.Data.List.Rotate

/-!
# Wrapping bursts as rotations

A wrapping burst that starts aligned fills its container, beginning at the slot of its start and
going on at the bottom behind the last slot. So its beats are those of the rising burst from the
base of the container in another order, and what the rising burst reads are the words of the
wrapping one, rotated by that slot (`Store.readBeats_rotate`).
-/

namespace BusScript

/-! ## Slots -/

namespace Addressing

variable {start beatBytes beats : ℕ}

/-- The slot of a start in its container, which is as many beats long as the burst. -/
def slot (start beatBytes beats : ℕ) : ℕ :=
  (start - (start - start % (beats * beatBytes))) / beatBytes

theorem slot_eq : slot start beatBytes beats = start / beatBytes % beats := by
  have below : start % (beats * beatBytes) ≤ start := Nat.mod_le _ _
  rw [slot, Nat.sub_sub_self below, Nat.mul_comm, Nat.mod_mul_right_div_self]

/-- A beat of an aligned wrapping burst is at the place of the beat of its slot in the rising burst
from the base of the container. -/
theorem place_rising_of_container (aligned : beatBytes ∣ start) (index : ℕ) :
    rising.place (start - start % (beats * beatBytes))
        ((index + slot start beatBytes beats) % beats) beatBytes beats =
      wrapping.place start index beatBytes beats := by
  have base : beatBytes ∣ start - start % (beats * beatBytes) := by
    apply Nat.dvd_sub aligned
    exact (Nat.dvd_mod_iff (Nat.dvd_mul_left _ _)).mpr aligned
  rw [place_wrapping, slot_eq, Nat.add_mod_mod, Nat.add_comm index,
    Nat.mod_eq_zero_of_dvd aligned, Nat.add_zero]
  unfold place
  dsimp only
  rw [Nat.mod_eq_zero_of_dvd base, Nat.sub_zero]
  split
  · rename_i bottom
    rw [bottom, Nat.zero_mul, Nat.add_zero]
  · rfl

end Addressing

/-! ## Geometry -/

/-- The rising kind of the same bus that leaves the count of beats open. -/
def Burst.rising : Burst → Burst
  | .ahb _ => .ahb .incr
  | .axi _ => .axi .incr

theorem Burst.addressing_rising (burst : Burst) : burst.rising.addressing = .rising := by
  cases burst <;> rfl

theorem Burst.WrapCount.le {burst : Burst} {beats : ℕ} (wraps : burst.addressing = .wrapping)
    (count : burst.WrapCount beats) : beats ≤ 16 := by
  obtain ⟨m, small, rfl⟩ := count.exists_two_pow wraps
  exact Nat.pow_le_pow_right (by decide) small

/-- Beats of a named size have few bytes, and so have those of an AXI width. -/
theorem Burst.beatBytes?_le {burst : Burst} {width : AxiWidth} {shape : Shape} {bytes : ℕ}
    (named : ∀ exponent, shape = .length exponent → burst.bus = .axi)
    (given : burst.beatBytes? width.bits shape = some (bytes : Int)) : bytes ≤ 16 := by
  have size (size : AhbSize) : size.bytes ≤ 16 := by cases size <;> decide
  have wide : width.bits / 8 ≤ 16 := by cases width <;> decide
  unfold beatBytes? at given
  split at given
  · have same := Option.some.inj given
    omega
  · rw [← Int.natCast_inj.mp (Option.some.inj given)]
    exact size .word
  · rw [← Int.natCast_inj.mp (Option.some.inj given)]
    exact size _
  · cases named _ rfl

/-! ## Stores -/

namespace Store

variable {burst linear : Burst} {start bytes beats : ℕ}

/-- A rising burst reads the container of a wrapping one in the order of the memory, which is that
of the wrapping burst but for a rotation. -/
theorem readBeats_rotate (store : Store) (power : ∃ k, bytes = 2 ^ k)
    (round : ∃ m, beats = 2 ^ m) (wraps : burst.addressing = .wrapping)
    (rises : linear.addressing = .rising) (aligned : bytes ∣ start) :
    (store.readBeats linear (start - start % (beats * bytes) : ℕ) bytes beats).rotate
        (Addressing.slot start bytes beats) =
      store.readBeats burst start bytes beats := by
  have length (seen : Burst) (address : Int) :
      (store.readBeats seen address bytes beats).length = beats := by simp [readBeats]
  refine List.ext_getElem (by rw [List.length_rotate, length, length]) fun i inside below => ?_
  obtain ⟨k, rfl⟩ := power
  have never : Addressing.rising = .wrapping → ∃ m, beats = 2 ^ m := fun other => by cases other
  rw [List.getElem_rotate]
  simp only [length]
  simp only [readBeats, List.getElem_map, List.getElem_range, wraps, rises]
  rw [beatAddress_eq _ _ k never, beatAddress_eq _ _ k fun _ => round,
    Addressing.place_rising_of_container aligned]

end Store

/-! ## Transactors -/

namespace Model

variable {setup : Setup} {world : World}

/-- A rising burst from the base of its container reads what an aligned wrapping burst wrote: the
words of the wrapping one, rotated by the slot of its start, each cut to the bytes of its beat. -/
theorem rising_read_of_wrapping_write (width : AxiWidth) (wide : setup.axiWidth = width.bits)
    (idle : world.pending = []) {burst : Burst} {shape seen : Shape} {start bytes : ℕ}
    {words : List Int} (wraps : burst.addressing = .wrapping)
    (named : ∀ exponent, shape = .length exponent → burst.bus = .axi)
    (written : burst.beatBytes? setup.axiWidth shape = some (bytes : Int))
    (looked : burst.rising.beatBytes? setup.axiWidth seen = some (bytes : Int))
    (aligned : bytes ∣ start) (count : burst.WrapCount words.length) :
    let base : ℕ := start - start % (words.length * bytes)
    let wrote := transactor setup (.writeBurst start words burst shape) world
    let read := transactor setup (.readBurst base burst.rising (words.length - 1) seen) wrote.state
    wrote.result = .ok () ∧
      ∃ given : List Int, read.result = .ok given ∧ given.length = words.length ∧
        ∀ (i : ℕ) (below : i < words.length),
          given[((start - base) / bytes + i) % words.length]? =
            some (words[i] % 2 ^ (8 * bytes)) := by
  intro base wrote read
  have power : ∃ k, bytes = 2 ^ k := Burst.exists_two_pow_of_beatBytes? (wide ▸ written)
  have positive : 0 < bytes := by
    obtain ⟨k, rfl⟩ := power
    exact Nat.two_pow_pos k
  have turn : words.length * bytes ≤ 2 ^ 32 := by
    have small := Burst.beatBytes?_le named (wide ▸ written)
    calc words.length * bytes ≤ 16 * 16 := Nat.mul_le_mul (count.le wraps) small
      _ ≤ 2 ^ 32 := by decide
  have moves : burst.addressing ≠ .fixed := by
    rw [wraps]
    decide
  obtain ⟨m, -, round⟩ := count.exists_two_pow wraps
  have back := Store.readBeats_writeBeats world.shared power moves aligned turn fun _ => count
  obtain ⟨stored, quiet, store⟩ := write_of_idle idle positive written start words
  obtain ⟨found, -⟩ := read_of_idle quiet positive looked base (words.length - 1)
  have beats : beatCount ((words.length : Int) - 1) = words.length := by
    unfold beatCount
    omega
  rw [store, beats] at found
  have rotated := Store.readBeats_rotate (world.shared.writeBeats burst start bytes words) power
    ⟨m, round⟩ wraps burst.addressing_rising aligned
  rw [back] at rotated
  generalize Store.readBeats _ burst.rising _ _ _ = given at found rotated
  have length : given.length = words.length := by
    rw [← given.length_rotate, rotated, List.length_map]
  refine ⟨stored, given, found, length, fun i below => ?_⟩
  calc given[((start - base) / bytes + i) % words.length]?
    _ = (given.rotate (Addressing.slot start bytes words.length))[i]? := by
      rw [List.getElem?_rotate (length ▸ below), length, Nat.add_comm i]
      rfl
    _ = some (words[i] % 2 ^ (8 * bytes)) := by
      rw [rotated, List.getElem?_map, List.getElem?_eq_getElem below]
      rfl

/-- Four words on the last container of the memory, from its third slot on: the read from its base
gives the last two first. -/
theorem rising_read_of_last_container :
    let setup : Setup := { axiWidth := 64 }
    let wrote := transactor setup (.writeBurst 0xFFFFFFF0 [-1, 2, 3, 0x10000000000000004]
      (.axi .wrap) (.length 3)) {}
    wrote.result = .ok () ∧
      (transactor setup (.readBurst 0xFFFFFFE0 (.axi .incr) 3 (.size none)) wrote.state).result =
        .ok [3, 4, 0xFFFFFFFFFFFFFFFF, 2] := by
  intro setup wrote
  obtain ⟨stored, given, found, length, rotated⟩ :=
    @rising_read_of_wrapping_write setup {} .w64 rfl rfl (.axi .wrap) (.length 3) (.size none)
      0xFFFFFFF0 8 [-1, 2, 3, 0x10000000000000004] rfl (fun _ _ => rfl) rfl rfl (by decide)
      (Or.inr (Or.inl rfl))
  obtain ⟨a, b, c, d, rfl⟩ := List.length_eq_four.mp length
  obtain rfl : c = 0xFFFFFFFFFFFFFFFF := Option.some.inj (rotated 0 (by decide))
  obtain rfl : d = 2 := Option.some.inj (rotated 1 (by decide))
  obtain rfl : a = 3 := Option.some.inj (rotated 2 (by decide))
  obtain rfl : b = 4 := Option.some.inj (rotated 3 (by decide))
  exact ⟨stored, found⟩

end Model

end BusScript
