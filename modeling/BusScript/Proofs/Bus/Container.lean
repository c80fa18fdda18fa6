import Mathlib.Algebra.Ring.Periodic
import Mathlib.Data.Int.ModEq
import Mathlib.Data.Set.Function
import BusScript.Proofs.Bus.Address

/-!
# Bursts in their container

The container of a wrapping burst is the block of memory that is as long as the burst, starts at a
multiple of its own length and holds the start address. A wrapping burst whose beats and beat size
are powers of two goes round in its container: it visits each address of the container that is as
far from a multiple of the beat size as the start, each once, and then begins anew
(`beatAddress_in_container`). A rising burst that starts aligned visits no address twice before it
has been through the whole address space.
-/

namespace BusScript

namespace Addressing

/-- The first address of the block of some size, aligned to that size, that an address is in. -/
def base (address size : ℕ) : ℕ :=
  address - address % size

variable {start index beatBytes beats : ℕ}

theorem dvd_base (address size : ℕ) : size ∣ base address size :=
  Nat.dvd_sub_mod address

theorem sub_base (address size : ℕ) : address - base address size = address % size :=
  Nat.sub_sub_self (Nat.mod_le address size)

/-- An aligned block that an address below a multiple of its size is in ends there at the latest. -/
theorem base_add_le {address size limit : ℕ} (below : address < limit) (whole : size ∣ limit) :
    base address size + size ≤ limit := by
  have start : base address size ≤ address := Nat.sub_le _ _
  have rest : size ∣ limit - base address size := Nat.dvd_sub whole (dvd_base address size)
  have room : size ≤ limit - base address size := Nat.le_of_dvd (by omega) rest
  omega

/-! ## Going round -/

theorem place_wrapping_eq_base_add (start index beatBytes beats : ℕ) :
    wrapping.place start index beatBytes beats = base start (beats * beatBytes) +
      (start - base start (beats * beatBytes) + index * beatBytes) % (beats * beatBytes) := by
  rw [sub_base, Nat.mod_add_mod]
  rfl

theorem place_wrapping_add_beats (start index beatBytes beats : ℕ) :
    wrapping.place start (index + beats) beatBytes beats =
      wrapping.place start index beatBytes beats := by
  rw [place_wrapping_eq_base_add, place_wrapping_eq_base_add, Nat.add_mul, ← Nat.add_assoc,
    Nat.add_mod_right]

/-- A wrapping burst stays as far from a multiple of the beat size as it starts. -/
theorem place_wrapping_modEq (start index beatBytes beats : ℕ) :
    wrapping.place start index beatBytes beats ≡ start [MOD beatBytes] := by
  have slots : beatBytes ∣ beats * beatBytes := Nat.dvd_mul_left _ _
  have bottom : base start (beats * beatBytes) ≡ 0 [MOD beatBytes] :=
    Nat.modEq_zero_iff_dvd.mpr (slots.trans (dvd_base _ _))
  have steps : index * beatBytes ≡ 0 [MOD beatBytes] :=
    Nat.modEq_zero_iff_dvd.mpr (Nat.dvd_mul_left _ _)
  have turned : (start + index * beatBytes) % (beats * beatBytes) ≡ start + index * beatBytes
      [MOD beatBytes] :=
    (Nat.mod_modEq _ _).of_dvd slots
  calc base start (beats * beatBytes) + (start + index * beatBytes) % (beats * beatBytes)
      ≡ 0 + (start + 0) [MOD beatBytes] := bottom.add (turned.trans (steps.add_left start))
    _ = start := by rw [Nat.zero_add, Nat.add_zero]

/-- A round of `count` slots reaches each of them from every start. -/
theorem exists_slot {target count : ℕ} (first : ℕ) (inside : target < count) :
    ∃ steps < count, (first + steps) % count = target := by
  have some : 0 < count := Nat.zero_lt_of_lt inside
  refine ⟨(target + (count - first % count)) % count, Nat.mod_lt _ some, ?_⟩
  have below : first % count < count := Nat.mod_lt _ some
  have whole : count * (first / count) + first % count = first := Nat.div_add_mod _ _
  calc (first + (target + (count - first % count)) % count) % count
      = (first + (target + (count - first % count))) % count := Nat.add_mod_mod _ _ _
    _ = (target + count * (first / count + 1)) % count := by
        rw [Nat.mul_succ]
        congr 1
        omega
    _ = target := by rw [Nat.add_mul_mod_self_left, Nat.mod_eq_of_lt inside]

/-- Every place of the container that is as far from a multiple of the beat size as the start is
that of a beat. -/
theorem exists_place_wrapping_eq {place : ℕ}
    (above : base start (beats * beatBytes) ≤ place)
    (below : place < base start (beats * beatBytes) + beats * beatBytes)
    (level : place ≡ start [MOD beatBytes]) :
    ∃ index < beats, wrapping.place start index beatBytes beats = place := by
  obtain ⟨offset, rfl⟩ := Nat.exists_eq_add_of_le above
  have bottom : base start (beats * beatBytes) ≡ 0 [MOD beatBytes] :=
    Nat.modEq_zero_iff_dvd.mpr ((Nat.dvd_mul_left _ _).trans (dvd_base _ _))
  have distance : offset % beatBytes = start % beatBytes :=
    calc offset ≡ 0 + offset [MOD beatBytes] := by rw [Nat.zero_add]
      _ ≡ base start (beats * beatBytes) + offset [MOD beatBytes] := bottom.symm.add_right offset
      _ ≡ start [MOD beatBytes] := level
  have inside : offset / beatBytes < beats :=
    Nat.div_lt_of_lt_mul (by rw [Nat.mul_comm]; omega)
  obtain ⟨index, last, slot⟩ := exists_slot (start / beatBytes) inside
  refine ⟨index, last, ?_⟩
  rw [place_wrapping, slot, ← distance, Nat.div_add_mod']
  rfl

theorem injOn_place_wrapping (size : 0 < beatBytes) :
    Set.InjOn (fun index => wrapping.place start index beatBytes beats) (Set.Iio beats) := by
  intro index last other ends same
  rcases Nat.lt_trichotomy index other with less | equal | less
  · have apart := place_wrapping_le_or_le start beatBytes less ends
    dsimp only at same
    omega
  · exact equal
  · have apart := place_wrapping_le_or_le start beatBytes less last
    dsimp only at same
    omega

/-! ## Addresses -/

/-- Addresses by index that go round the container of a start, beat by beat. -/
structure GoesRound (addresses : ℕ → Int) (start beatBytes beats : ℕ) : Prop where
  /-- The distance from the base grows by a beat with each index, modulo the size. -/
  distance : ∀ index : ℕ, addresses index = base start (beats * beatBytes) +
    ((start - base start (beats * beatBytes) : Int) + index * beatBytes) % (beats * beatBytes : ℕ)
  /-- Every address is in the container. -/
  inside : ∀ index, base start (beats * beatBytes) ≤ addresses index ∧
    addresses index < base start (beats * beatBytes) + (beats * beatBytes : ℕ)
  /-- After the beats of the burst all begins anew. -/
  periodic : Function.Periodic addresses beats
  /-- The beats of the burst are, each once, at the addresses of the container that are congruent to
  the start modulo the beat size. -/
  visits : Set.BijOn addresses (Set.Iio beats)
    {address | base start (beats * beatBytes) ≤ address ∧
      address < base start (beats * beatBytes) + (beats * beatBytes : ℕ) ∧
      address ≡ start [ZMOD beatBytes]}

/-- Places of a wrapping burst, as addresses. -/
theorem goesRound_place (size : 0 < beatBytes) (some : 0 < beats) :
    GoesRound (fun index => (wrapping.place start index beatBytes beats : ℕ)) start beatBytes
      beats := by
  have inside (index : ℕ) : base start (beats * beatBytes) ≤
        wrapping.place start index beatBytes beats ∧
      wrapping.place start index beatBytes beats <
        base start (beats * beatBytes) + beats * beatBytes := by
    have turn : (start - base start (beats * beatBytes) + index * beatBytes) %
        (beats * beatBytes) < beats * beatBytes := Nat.mod_lt _ (Nat.mul_pos some size)
    rw [place_wrapping_eq_base_add]
    omega
  refine ⟨fun index => ?_, fun index => ?_, fun index => ?_, fun index _ => ?_, ?_, ?_⟩
  · have below : base start (beats * beatBytes) ≤ start := Nat.sub_le _ _
    rw [place_wrapping_eq_base_add]
    push_cast [below]
    rfl
  · exact_mod_cast inside index
  · exact congrArg Nat.cast (place_wrapping_add_beats start index beatBytes beats)
  · have level := place_wrapping_modEq start index beatBytes beats
    have above : (base start (beats * beatBytes) : Int) ≤
        (wrapping.place start index beatBytes beats : ℕ) := by exact_mod_cast (inside index).1
    have below : ((wrapping.place start index beatBytes beats : ℕ) : Int) <
        base start (beats * beatBytes) + (beats * beatBytes : ℕ) := by
      exact_mod_cast (inside index).2
    exact ⟨above, below, Int.natCast_modEq_iff.mpr level⟩
  · intro index last other ends same
    exact injOn_place_wrapping size last ends (Int.natCast_inj.mp same)
  · rintro address ⟨above, below, level⟩
    obtain ⟨place, rfl⟩ := Int.eq_ofNat_of_zero_le ((Int.natCast_nonneg _).trans above)
    obtain ⟨index, last, here⟩ := exists_place_wrapping_eq (by exact_mod_cast above)
      (by exact_mod_cast below) (Int.natCast_modEq_iff.mp level)
    exact ⟨index, last, congrArg Nat.cast here⟩

end Addressing

open Addressing

variable {start beatBytes beats : ℕ}

theorem address32_of_lt {place : ℕ} (below : place < 2 ^ 32) : address32 place = place := by
  have power : Int.pow 2 addressWidth = 4294967296 := rfl
  rw [address32, power]
  exact Int.emod_eq_of_lt (Int.natCast_nonneg place) (by omega)

/-- Steps of one size that stay within a turn of the address space end at different addresses. -/
theorem injOn_steps (start : ℕ) (some : 0 < beatBytes) :
    Set.InjOn (fun index => (start + index * beatBytes) % 2 ^ 32)
      (Set.Iio (2 ^ 32 / beatBytes)) := by
  intro index last other ends same
  have steps : index * beatBytes ≡ other * beatBytes [MOD 2 ^ 32] :=
    Nat.ModEq.add_left_cancel' start same
  have within {index : ℕ} (last : index < 2 ^ 32 / beatBytes) : index * beatBytes < 2 ^ 32 :=
    calc index * beatBytes
        < (index + 1) * beatBytes := Nat.mul_lt_mul_of_pos_right (Nat.lt_succ_self index) some
      _ ≤ 2 ^ 32 := (Nat.le_div_iff_mul_le some).mp last
  have equal : index * beatBytes = other * beatBytes :=
    steps.eq_of_lt_of_lt (within last) (within ends)
  exact Nat.eq_of_mul_eq_mul_right some equal

theorem beatAddress_wrapping_eq_place (start32 : start < 2 ^ 32) (bytes : ∃ k, beatBytes = 2 ^ k)
    (count : ∃ m, beats = 2 ^ m) (fits : beats * beatBytes ≤ 2 ^ 32) (index : ℕ) :
    beatAddress .wrapping start index beatBytes beats =
      (wrapping.place start index beatBytes beats : ℕ) := by
  obtain ⟨k, rfl⟩ := bytes
  obtain ⟨m, rfl⟩ := count
  have whole : 2 ^ m * 2 ^ k ∣ 2 ^ 32 := by
    rw [← Nat.pow_add] at fits ⊢
    exact Nat.pow_dvd_pow 2 ((Nat.pow_le_pow_iff_right (by decide)).mp fits)
  have room : base start (2 ^ m * 2 ^ k) + 2 ^ m * 2 ^ k ≤ 2 ^ 32 := base_add_le start32 whole
  have turn : (start - base start (2 ^ m * 2 ^ k) + index * 2 ^ k) % (2 ^ m * 2 ^ k) <
      2 ^ m * 2 ^ k := Nat.mod_lt _ (by positivity)
  rw [beatAddress_eq _ _ _ fun _ => ⟨m, rfl⟩, address32_of_lt]
  rw [place_wrapping_eq_base_add]
  omega

theorem beatAddress_rising_of_aligned (bytes : ∃ k, beatBytes = 2 ^ k) (aligned : beatBytes ∣ start)
    (index : ℕ) :
    beatAddress .rising start index beatBytes beats =
      ((start + index * beatBytes) % 2 ^ 32 : ℕ) := by
  obtain ⟨k, rfl⟩ := bytes
  have never : Addressing.rising = .wrapping → ∃ m, beats = 2 ^ m := by simp
  have whole : rising.place start index (2 ^ k) beats = start + index * 2 ^ k := by
    unfold place
    dsimp only
    split
    · rename_i first
      rw [first, Nat.zero_mul, Nat.add_zero]
    · rw [Nat.mod_eq_zero_of_dvd aligned, Nat.sub_zero]
  rw [beatAddress_eq _ _ _ never, whole]
  rfl

/-- The beats of a wrapping burst go round its container. The addresses of a rising burst from an
aligned start grow by a beat each, modulo the size of the address space, and none comes twice before
the burst has been through all of it. -/
theorem beatAddress_in_container (start32 : start < 2 ^ 32) (bytes : ∃ k, beatBytes = 2 ^ k)
    (count : ∃ m, beats = 2 ^ m) (fits : beats * beatBytes ≤ 2 ^ 32) :
    GoesRound (fun index => beatAddress .wrapping start index beatBytes beats) start beatBytes
        beats ∧
      (beatBytes ∣ start →
        (∀ index : ℕ, beatAddress .rising start index beatBytes beats =
          (start + index * beatBytes : Int) % 2 ^ 32) ∧
        Set.InjOn (fun index : ℕ => beatAddress .rising start index beatBytes beats)
          (Set.Iio (2 ^ 32 / beatBytes))) := by
  have size : 0 < beatBytes := by
    obtain ⟨k, rfl⟩ := bytes
    positivity
  have some : 0 < beats := by
    obtain ⟨m, rfl⟩ := count
    positivity
  refine ⟨?_, fun aligned => ⟨fun index => ?_, fun index last other ends same => ?_⟩⟩
  · rw [funext (beatAddress_wrapping_eq_place start32 bytes count fits)]
    exact goesRound_place size some
  · rw [beatAddress_rising_of_aligned bytes aligned]
    push_cast
    rfl
  · dsimp only at same
    rw [beatAddress_rising_of_aligned bytes aligned, beatAddress_rising_of_aligned bytes aligned]
      at same
    exact injOn_steps start size last ends (Int.natCast_inj.mp same)

/-- A burst of four words from `0xFFFFFFF8` goes round the topmost sixteen bytes, or on from the
bottom of the address space. -/
theorem beatAddress_in_last_container :
    (0xFFFFFFF8 < 2 ^ 32 ∧ (∃ k, 4 = 2 ^ k) ∧ (∃ m, 4 = 2 ^ m) ∧ 4 * 4 ≤ 2 ^ 32 ∧
        4 ∣ 0xFFFFFFF8) ∧
      GoesRound (fun index => beatAddress .wrapping (0xFFFFFFF8 : ℕ) index (4 : ℕ) (4 : ℕ))
        0xFFFFFFF8 4 4 ∧
      (List.range 5).map (fun index : ℕ => beatAddress .wrapping 0xFFFFFFF8 index 4 4) =
        [0xFFFFFFF8, 0xFFFFFFFC, 0xFFFFFFF0, 0xFFFFFFF4, 0xFFFFFFF8] ∧
      (∀ index : ℕ, beatAddress .rising (0xFFFFFFF8 : ℕ) index (4 : ℕ) (4 : ℕ) =
        ((0xFFFFFFF8 : ℕ) + index * (4 : ℕ) : Int) % 2 ^ 32) ∧
      beatAddress .rising 0xFFFFFFF8 2 4 4 = 0 := by
  have bytes : ∃ k, 4 = 2 ^ k := ⟨2, rfl⟩
  have start32 : 0xFFFFFFF8 < 2 ^ 32 := by decide
  have goesRound := beatAddress_in_container start32 bytes bytes (by decide)
  exact ⟨⟨start32, bytes, bytes, by decide, by decide⟩, goesRound.1, by decide,
    (goesRound.2 (by decide)).1, by decide⟩

end BusScript
