import Mathlib.Algebra.Order.Ring.Int
import Mathlib.Data.Nat.ModEq
import Mathlib.Tactic.Positivity
import Mathlib.Tactic.Ring
import BusScript.Bus.Address

/-!
# Beat addresses in plain arithmetic

Masks clear the low bits of an address, which rounds it down to a multiple of a power of two. So the
address of a beat is a place in a memory without end, cut to 32 bits (`beatAddress_eq`). The places
of a rising burst follow each other behind the rounded start; those of a wrapping burst go round in
the container that holds the start, all at the same distance from a multiple of the beat size.
-/

namespace BusScript

/-! ## Masks -/

theorem Number.bitClear_two_pow (value k : ℕ) :
    Number.bitClear value (2 ^ k - 1) = (value - value % 2 ^ k : ℕ) := by
  have positive : 1 ≤ 2 ^ k := Nat.one_le_two_pow
  have mask : -((2 : Int) ^ k - 1) - 1 = Int.negSucc (2 ^ k - 1) := by
    rw [Int.negSucc_eq, Nat.cast_sub positive]
    push_cast
    ring
  unfold bitClear
  rw [mask]
  show Int.ofNat (value - (value &&& (2 ^ k - 1))) = _
  rw [Nat.and_two_pow_sub_one_eq_mod]
  rfl

/-! ## Places -/

/-- Where a beat is in a memory without end. -/
def Addressing.place (mode : Addressing) (start index beatBytes beats : ℕ) : ℕ :=
  match mode with
  | .fixed => start
  | .rising => if index = 0 then start else start - start % beatBytes + index * beatBytes
  | .wrapping =>
    start - start % (beats * beatBytes) + (start + index * beatBytes) % (beats * beatBytes)

/-- The address of a beat is its place, cut to 32 bits. -/
theorem beatAddress_eq {mode : Addressing} (start index k : ℕ) {beats : ℕ}
    (round : mode = .wrapping → ∃ m, beats = 2 ^ m) :
    beatAddress mode start index (2 ^ k : ℕ) beats =
      address32 (mode.place start index (2 ^ k) beats) := by
  have power : ((2 ^ k : ℕ) : Int) = 2 ^ k := by push_cast; rfl
  cases mode with
  | fixed => rfl
  | rising =>
    by_cases first : index = 0
    · subst first
      rfl
    · have later : (index : Int) ≠ 0 := by exact_mod_cast first
      simp only [beatAddress, Addressing.place, reduceCtorEq, later, first, or_self, if_false]
      rw [power, Number.bitClear_two_pow]
      push_cast
      rfl
  | wrapping =>
    obtain ⟨m, rfl⟩ := round rfl
    by_cases first : index = 0
    · subst first
      have all : start - start % (2 ^ m * 2 ^ k) + start % (2 ^ m * 2 ^ k) = start :=
        Nat.sub_add_cancel (Nat.mod_le _ _)
      simp only [beatAddress, Addressing.place, Nat.cast_zero, or_true, if_true, Nat.zero_mul,
        Nat.add_zero, all]
    · have later : (index : Int) ≠ 0 := by exact_mod_cast first
      have container : ((2 ^ m : ℕ) : Int) * (2 ^ k : ℕ) = 2 ^ (m + k) := by
        push_cast
        rw [pow_add]
      have offset : (start : Int) - ((start - start % 2 ^ (m + k) : ℕ) : Int) =
          ((start % 2 ^ (m + k) : ℕ) : Int) := by
        rw [Nat.cast_sub (Nat.mod_le _ _)]
        ring
      have cut : Int.fmod (((start % 2 ^ (m + k) : ℕ) : Int) + index * (2 ^ k : ℕ)) (2 ^ (m + k)) =
          (((start + index * 2 ^ k) % 2 ^ (m + k) : ℕ) : Int) := by
        rw [Int.fmod_eq_emod_of_nonneg _ (by positivity)]
        push_cast
        rw [Int.emod_add_emod]
      simp only [beatAddress, Addressing.place, reduceCtorEq, later, or_self, if_false]
      rw [container, Number.bitClear_two_pow, offset, cut, ← pow_add]
      push_cast
      rfl

/-! ## Beats apart -/

namespace Addressing

variable {start index other beatBytes beats : ℕ}

variable (beats) in
/-- A later beat of a rising burst is behind an earlier one. Only the first beat of an unaligned
burst reaches into the second. -/
theorem place_rising_le (some : 0 < beatBytes) (order : index < other)
    (clear : beatBytes ∣ start ∨ index ≠ 0 ∨ other ≠ 1) :
    rising.place start index beatBytes beats + beatBytes ≤
        rising.place start other beatBytes beats ∧
      rising.place start other beatBytes beats + beatBytes ≤
        rising.place start index beatBytes beats + (other - index + 1) * beatBytes := by
  have rounded : start - start % beatBytes + start % beatBytes = start :=
    Nat.sub_add_cancel (Nat.mod_le _ _)
  have later : other ≠ 0 := Nat.ne_zero_of_lt order
  obtain ⟨gap, rfl⟩ := Nat.exists_eq_add_of_lt order
  have steps : (index + gap + 1) * beatBytes = index * beatBytes + gap * beatBytes + beatBytes := by
    ring
  have turn : (index + gap + 1 - index + 1) * beatBytes =
      gap * beatBytes + beatBytes + beatBytes := by
    rw [Nat.add_assoc index, Nat.add_sub_cancel_left]
    ring
  by_cases first : index = 0
  · subst first
    have clear : start % beatBytes = 0 ∨ beatBytes ≤ gap * beatBytes := by
      rcases clear with aligned | other | other
      · exact .inl (Nat.mod_eq_zero_of_dvd aligned)
      · exact absurd rfl other
      · exact .inr (Nat.le_mul_of_pos_left _ (by omega))
    have beyond : start % beatBytes < beatBytes := Nat.mod_lt _ some
    simp only [place, later, if_false, if_true]
    omega
  · simp only [place, later, first, if_false]
    omega

/-- The places of a wrapping burst are as far from a multiple of the beat size as its start, and no
two of its beats are at the same multiple. -/
theorem place_wrapping :
    wrapping.place start index beatBytes beats = start - start % (beats * beatBytes) +
      ((start / beatBytes + index) % beats * beatBytes + start % beatBytes) := by
  unfold place
  dsimp only
  rcases Nat.eq_zero_or_pos beatBytes with rfl | some
  · simp
  · have slot : (start + index * beatBytes) % (beatBytes * beats) =
        start % beatBytes + beatBytes * ((start / beatBytes + index) % beats) := by
      rw [Nat.mod_mul, Nat.add_mul_mod_self_right, Nat.add_mul_div_right _ _ some]
    rw [Nat.mul_comm beats, slot, Nat.mul_comm beatBytes ((start / beatBytes + index) % beats),
      Nat.add_comm (start % beatBytes)]

variable (start index beatBytes beats) in
theorem place_wrapping_mem :
    start - start % (beats * beatBytes) + start % beatBytes ≤
        wrapping.place start index beatBytes beats ∧
      (0 < beats → wrapping.place start index beatBytes beats + beatBytes ≤
        start - start % (beats * beatBytes) + start % beatBytes + beats * beatBytes) := by
  rw [place_wrapping]
  refine ⟨by omega, fun some => ?_⟩
  have below : (start / beatBytes + index) % beats + 1 ≤ beats := Nat.mod_lt _ some
  have inside := Nat.mul_le_mul_right beatBytes below
  rw [Nat.add_mul, Nat.one_mul] at inside
  omega

variable (start beatBytes) in
theorem place_wrapping_le_or_le (order : index < other) (last : other < beats) :
    wrapping.place start index beatBytes beats + beatBytes ≤
        wrapping.place start other beatBytes beats ∨
      wrapping.place start other beatBytes beats + beatBytes ≤
        wrapping.place start index beatBytes beats := by
  rw [place_wrapping, place_wrapping]
  have distinct :
      (start / beatBytes + index) % beats ≠ (start / beatBytes + other) % beats := by
    intro equal
    have same : index % beats = other % beats :=
      Nat.ModEq.add_left_cancel' (start / beatBytes) equal
    rw [Nat.mod_eq_of_lt (order.trans last), Nat.mod_eq_of_lt last] at same
    omega
  rcases Nat.lt_or_gt_of_ne distinct with less | less
  · have apart := Nat.mul_le_mul_right beatBytes (Nat.succ_le_of_lt less)
    rw [Nat.succ_mul] at apart
    omega
  · have apart := Nat.mul_le_mul_right beatBytes (Nat.succ_le_of_lt less)
    rw [Nat.succ_mul] at apart
    omega

end Addressing

end BusScript
