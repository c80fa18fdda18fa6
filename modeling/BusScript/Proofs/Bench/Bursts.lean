import BusScript.Proofs.Bench.Model
import BusScript.Proofs.Memory.Beats

/-!
# Bursts on the memory model

A burst that is written to the memory model and read again with the same geometry. The words come
back in their order, each cut to the bytes of its beat, as long as no two beats cover the same cell;
on a burst that stays at one address the last word is left. No other byte changes.
-/

namespace BusScript

open Store

/-! ## Geometry -/

/-- The counts of beats that a wrapping kind can have. -/
def Burst.WrapCount (burst : Burst) (beats : ℕ) : Prop :=
  match burst with
  | .ahb kind => kind.beats? = some beats
  | .axi _ => beats = 2 ∨ beats = 4 ∨ beats = 8 ∨ beats = 16

theorem Burst.WrapCount.exists_two_pow {burst : Burst} {beats : ℕ}
    (wrapping : burst.addressing = .wrapping) (count : burst.WrapCount beats) :
    ∃ m, m ≤ 4 ∧ beats = 2 ^ m := by
  have few : beats = 2 ∨ beats = 4 ∨ beats = 8 ∨ beats = 16 := by
    cases burst with
    | axi kind => exact count
    | ahb kind =>
      have fixed : kind.beats? = some beats := count
      cases kind <;> simp_all [Burst.addressing, AhbBurst.beats?]
  rcases few with rfl | rfl | rfl | rfl
  · exact ⟨1, by decide, rfl⟩
  · exact ⟨2, by decide, rfl⟩
  · exact ⟨3, by decide, rfl⟩
  · exact ⟨4, by decide, rfl⟩

/-- The bytes of a beat are a power of two. -/
theorem Burst.exists_two_pow_of_beatBytes? {burst : Burst} {width : AxiWidth} {shape : Shape}
    {bytes : ℕ} (given : burst.beatBytes? width.bits shape = some (bytes : Int)) :
    ∃ k, bytes = 2 ^ k := by
  have size (size : AhbSize) : ∃ k, size.bytes = 2 ^ k := ⟨size.code, by cases size <;> rfl⟩
  unfold beatBytes? at given
  split at given
  · cases width with
    | w64 => exact ⟨3, by exact_mod_cast (Option.some.inj given).symm⟩
    | w128 => exact ⟨4, by exact_mod_cast (Option.some.inj given).symm⟩
  · obtain ⟨k, power⟩ := size .word
    exact ⟨k, by rw [← power]; exact_mod_cast (Option.some.inj given).symm⟩
  · rename_i transfer
    obtain ⟨k, power⟩ := size transfer
    exact ⟨k, by rw [← power]; exact_mod_cast (Option.some.inj given).symm⟩
  · rename_i exponent
    split at given
    · cases given
    · have power : Int.pow 2 exponent.toNat = ((2 ^ exponent.toNat : ℕ) : Int) :=
        (Int.natCast_pow 2 exponent.toNat).symm
      rw [power] at given
      exact ⟨exponent.toNat, by exact_mod_cast (Option.some.inj given).symm⟩

theorem Burst.hasAddresses_of_pos {burst : Burst} {bytes beats : ℕ} (some : 0 < bytes) :
    burst.hasAddresses bytes beats := by
  unfold hasAddresses hasBeatAddress
  by_cases one : beats ≤ 1
  · simp [one]
  · have product : ((beats : Int) * bytes == 0) = false := by
      rw [beq_eq_false_iff_ne]
      exact mul_ne_zero (by omega) (by omega)
    simp [product]

/-! ## Stores -/

namespace Store

variable {burst : Burst} {start bytes : ℕ} {words : List Int}

theorem pow_eight_mul (bytes : ℕ) : (256 : Int) ^ bytes = 2 ^ (8 * bytes) := by
  rw [pow_mul]
  norm_num

/-- Words on beats that cover different cells are read back in order. -/
theorem readBeats_writeBeats (store : Store) (power : ∃ k, bytes = 2 ^ k)
    (moves : burst.addressing ≠ .fixed) (aligned : bytes ∣ start)
    (turn : words.length * bytes ≤ 2 ^ 32)
    (round : burst.addressing = .wrapping → burst.WrapCount words.length) :
    (store.writeBeats burst start bytes words).readBeats burst start bytes words.length =
      words.map (· % 2 ^ (8 * bytes)) := by
  refine List.ext_getElem (by simp [readBeats]) fun i inside below => ?_
  rw [List.length_map] at below
  have one : 1 * bytes ≤ words.length * bytes := Nat.mul_le_mul_right bytes (by omega)
  have kept : ∀ later, i < later → later < words.length →
      (cells (beatAddress burst.addressing start i bytes words.length) bytes).Disjoint
        (cells (beatAddress burst.addressing start later bytes words.length) bytes) := by
    intro later behind last
    refine disjoint_beats moves power (fun wrapping => ?_) behind last ?_ (.inr (.inl aligned))
    · obtain ⟨m, -, count⟩ := (round wrapping).exists_two_pow wrapping
      exact ⟨⟨m, count⟩, turn⟩
    · have stretch := Nat.mul_le_mul_right bytes (show later - i + 1 ≤ words.length by omega)
      omega
  have word := read_beatWrites (beatAddress burst.addressing start · bytes words.length) store below
    (show bytes ≤ 2 ^ 32 by omega) kept
  simp only [readBeats, List.getElem_map, List.getElem_range, writeBeats_eq_written,
    Int.toNat_natCast]
  rw [word, pow_eight_mul]

/-- Where all beats are at one address, the last word is read from each of them. -/
theorem readBeats_writeBeats_fixed (store : Store) (address : Int)
    (stays : burst.addressing = .fixed) (few : bytes ≤ 2 ^ 32) (some : words ≠ []) :
    (store.writeBeats burst address bytes words).readBeats burst address bytes words.length =
      List.replicate words.length (words.getLast some % 2 ^ (8 * bytes)) := by
  have count := List.length_pos_of_ne_nil some
  have here (i : Int) : beatAddress burst.addressing address i bytes words.length =
      address32 address := if_pos (.inl stays)
  have last : words.length - 1 < words.length := by omega
  have word := read_beatWrites (fun _ => address32 address) store last few
    fun later behind below => by omega
  rw [← List.getLast_eq_getElem some] at word
  refine List.ext_getElem (by simp [readBeats]) fun i inside below => ?_
  simp only [readBeats, List.getElem_map, List.getElem_replicate, writeBeats_eq_written,
    Int.toNat_natCast, here]
  rw [word, pow_eight_mul]

/-- A byte that no beat covers stays as it is. -/
theorem byte_writeBeats_of_apart (store : Store) {address place : Int}
    (apart : ∀ i < words.length, cell place ∉
      cells (beatAddress burst.addressing address i bytes words.length) bytes) :
    (store.writeBeats burst address bytes words).byte place = store.byte place := by
  rw [writeBeats_eq_written, byte_written_eq, lastStored_beatWrites_eq_none, Option.getD_none]
  exact fun i below => apart i below

end Store

/-! ## Transactors -/

namespace Model

variable {setup : Setup} {world : World} {burst : Burst} {shape : Shape} {bytes : ℕ}

/-- While no preload is outstanding, a write changes the store by its words alone. -/
theorem write_of_idle (idle : world.pending = []) (some : 0 < bytes)
    (given : burst.beatBytes? setup.axiWidth shape = .some (bytes : Int)) (address : Int)
    (words : List Int) :
    (write setup burst address shape words world).result = .ok () ∧
      (write setup burst address shape words world).state.pending = [] ∧
      (write setup burst address shape words world).state.shared =
        world.shared.writeBeats burst address bytes words := by
  have placed : burst.hasAddresses bytes words.length := Burst.hasAddresses_of_pos some
  unfold write
  rw [given]
  dsimp only
  rw [if_pos placed]
  exact ⟨rfl, stored_tick setup { world with
    shared := world.shared.writeBeats burst address bytes words } burst.bus words.length idle⟩

/-- While no preload is outstanding, a read changes nothing in the store that it reads from. -/
theorem read_of_idle (idle : world.pending = []) (some : 0 < bytes)
    (given : burst.beatBytes? setup.axiWidth shape = .some (bytes : Int)) (address length : Int) :
    (read setup burst address shape length world).result =
        .ok (world.shared.readBeats burst address bytes (beatCount length)) ∧
      (read setup burst address shape length world).state.shared = world.shared := by
  have placed : burst.hasAddresses bytes (beatCount length) := Burst.hasAddresses_of_pos some
  have same := (stored_tick setup world burst.bus (length + 1) idle).2
  unfold read
  rw [given]
  dsimp only
  rw [if_pos placed, same]
  exact ⟨rfl, rfl⟩

/-- A burst of words can be written, and then a read of its beats gives some words. Bytes of cells
that are not covered stay as they are. -/
structure ReadsBack (setup : Setup) (world : World) (burst : Burst) (address : Int)
    (shape seen : Shape) (words given : List Int) (covered : List ℕ) : Prop where
  wrote : (transactor setup (.writeBurst address words burst shape) world).result = .ok ()
  read : (transactor setup (.readBurst address burst (words.length - 1) seen)
    (transactor setup (.writeBurst address words burst shape) world).state).result = .ok given
  kept : ∀ place, cell place ∉ covered →
    (transactor setup (.writeBurst address words burst shape) world).state.shared.byte place =
      world.shared.byte place
  still : (transactor setup (.readBurst address burst (words.length - 1) seen)
    (transactor setup (.writeBurst address words burst shape) world).state).state.shared =
      (transactor setup (.writeBurst address words burst shape) world).state.shared

/-- What the store gives back, a read of the burst gives. -/
theorem readsBack_of_store (idle : world.pending = []) (some : 0 < bytes) {seen : Shape}
    (written : burst.beatBytes? setup.axiWidth shape = .some (bytes : Int))
    (looked : burst.beatBytes? setup.axiWidth seen = .some (bytes : Int)) {address : Int}
    {words given : List Int} (any : words ≠ [])
    (back : (world.shared.writeBeats burst address bytes words).readBeats burst address bytes
      words.length = given) {covered : List ℕ}
    (kept : ∀ place, cell place ∉ covered →
      (world.shared.writeBeats burst address bytes words).byte place = world.shared.byte place) :
    ReadsBack setup world burst address shape seen words given covered := by
  obtain ⟨wrote, quiet, stored⟩ := write_of_idle idle some written address words
  obtain ⟨read, still⟩ := read_of_idle quiet some looked address (words.length - 1)
  have count := List.length_pos_of_ne_nil any
  have beats : beatCount (words.length - 1) = words.length := by
    unfold beatCount
    omega
  constructor
  case wrote => exact wrote
  case read => rw [transactor, transactor, read, stored, beats, back]
  case kept =>
    intro place apart
    rw [transactor, stored]
    exact kept place apart
  case still => exact still

/-- The beats of a burst cover their cells and no others, and a read of the burst gives the words
that were written: all of them, or the last one where the burst stays at its start. A single AXI
write of several beats is a burst of the same word. -/
theorem burst_reads_back (width : AxiWidth) (wide : setup.axiWidth = width.bits)
    (idle : world.pending = []) :
    (∀ (burst : Burst) (shape seen : Shape) (bytes : ℕ) (address : Int) (words : List Int),
      burst.addressing ≠ .fixed →
      burst.beatBytes? setup.axiWidth shape = some (bytes : Int) →
      burst.beatBytes? setup.axiWidth seen = some (bytes : Int) →
      Fits addressWidth address → (bytes : Int) ∣ address →
      words ≠ [] → words.length * bytes ≤ 2 ^ 32 →
      (burst.addressing = .wrapping → burst.WrapCount words.length) →
        ReadsBack setup world burst address shape seen words (words.map (· % 2 ^ (8 * bytes)))
          ((List.range words.length).flatMap fun (i : ℕ) =>
            cells (beatAddress burst.addressing address i bytes words.length) bytes)) ∧
    (∀ (shape seen : Shape) (address : Int) (words : List Int) (some : words ≠ []),
      ReadsBack setup world (.axi .fixed) address shape seen words
        (List.replicate words.length (words.getLast some % 2 ^ width.bits))
        (cells address (width.bits / 8))) ∧
    ∀ (kind : AxiBurst) (shape : Shape) (address word length : Int),
      (transactor setup (.write address word (.axi kind) (.length length)) world).state.shared =
        (transactor setup (.writeBurst address (List.replicate (length + 1).toNat word)
          (.axi kind) shape) world).state.shared := by
  refine ⟨?moving, ?fixed, ?single⟩
  case moving =>
    intro burst shape seen bytes address words moves written looked start aligned any turn round
    obtain ⟨first, rfl⟩ := Int.eq_ofNat_of_zero_le start.1
    have power : ∃ k, bytes = 2 ^ k := Burst.exists_two_pow_of_beatBytes? (wide ▸ written)
    have some : 0 < bytes := by
      obtain ⟨k, rfl⟩ := power
      exact Nat.two_pow_pos k
    have back := readBeats_writeBeats world.shared power moves (Int.natCast_dvd_natCast.mp aligned)
      turn round
    refine readsBack_of_store idle some written looked any back fun place apart => ?_
    refine byte_writeBeats_of_apart world.shared fun i below inside => apart ?_
    exact List.mem_flatMap.mpr ⟨i, List.mem_range.mpr below, inside⟩
  case fixed =>
    intro shape seen address words some
    have bytes (shape : Shape) : (Burst.axi .fixed).beatBytes? setup.axiWidth shape =
        .some ((width.bits / 8 : ℕ) : Int) := by
      rw [wide]
      rfl
    have few : width.bits / 8 ≤ 2 ^ 32 := by cases width <;> decide
    have whole : 8 * (width.bits / 8) = width.bits := by cases width <;> rfl
    have stays : (Burst.axi .fixed).addressing = .fixed := rfl
    have back := readBeats_writeBeats_fixed world.shared address stays few some
    rw [whole] at back
    refine readsBack_of_store idle (by cases width <;> decide) (bytes shape) (bytes seen) some back
      fun place apart => ?_
    refine byte_writeBeats_of_apart world.shared fun i _ => ?_
    have here : beatAddress .fixed address i (width.bits / 8 : ℕ) words.length =
        address32 address := if_pos (.inl rfl)
    rw [Burst.addressing, here, cells_address32]
    exact apart
  case single =>
    intro kind shape address word length
    rfl

/-- A burst that runs over the end of the memory is read back, and leaves the byte behind it. -/
theorem burst_over_the_end_reads_back :
    let world : World := { shared := written {} [(0x7, 1), (0x8, 2)] }
    ReadsBack { axiWidth := 64 } world (.axi .incr) 0xFFFFFFF8 (.length 1) (.size none)
        [-1, 0x10000000000000005] [0xFFFFFFFFFFFFFFFF, 5]
        (cells 0xFFFFFFF8 8 ++ cells 0 8) ∧
      (transactor { axiWidth := 64 } (.writeBurst 0xFFFFFFF8 [-1, 0x10000000000000005] (.axi .incr)
        (.length 1)) world).state.shared.byte 8 = 2 := by
  intro world
  have back : ReadsBack { axiWidth := 64 } world (.axi .incr) 0xFFFFFFF8 (.length 1) (.size none)
      [-1, 0x10000000000000005] [0xFFFFFFFFFFFFFFFF, 5] (cells 0xFFFFFFF8 8 ++ cells 0 8) :=
    (burst_reads_back .w64 rfl rfl).1 (.axi .incr) (.length 1) (.size none) 8 0xFFFFFFF8
      [-1, 0x10000000000000005] (by decide) rfl rfl ⟨by decide, by decide⟩ (by decide) (by decide)
      (by decide) fun wrapping => by cases wrapping
  exact ⟨back, by rw [back.kept 8 (by decide)]; decide⟩

end Model

end BusScript
