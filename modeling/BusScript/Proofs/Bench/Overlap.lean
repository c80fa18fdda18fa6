import BusScript.Proofs.Bench.Bursts
import BusScript.Proofs.Run.Calls

/-!
# Beats of transactions

Where the beats of a transaction that the grammar accepts lie in memory, whatever its start address.
The beats of a rising or wrapping burst are apart from each other as long as they fit in the memory,
but for the first two of a rising burst that starts unaligned. A wrapping burst keeps to as many
bytes as it has, moved up from its container as far as its start is from a multiple of the beat
size. So on the memory model a word is left in place by the later beats of its burst, and the rest
of the memory by all of them.
-/

namespace BusScript

open Store

namespace Transaction

/-- The cells that a beat covers. -/
def beatCells (t : Transaction) (index : ℕ) : List ℕ :=
  cells (t.beatAddress index) t.beatBytes.toNat

/-- The cells of the aligned stretch of a burst's bytes that its start is in. -/
def containerCells (t : Transaction) : List ℕ :=
  cells (t.address - t.address % (t.beats * t.beatBytes)) (t.beats * t.beatBytes).toNat

/-- The cells that a wrapping burst goes round in. -/
def roundCells (t : Transaction) : List ℕ :=
  cells (t.address - t.address % (t.beats * t.beatBytes) + t.address % t.beatBytes)
    (t.beats * t.beatBytes).toNat

theorem roundCells_of_aligned {t : Transaction} (aligned : t.beatBytes ∣ t.address) :
    t.roundCells = t.containerCells := by
  rw [roundCells, Int.emod_eq_zero_of_dvd aligned, Int.add_zero, containerCells]

/-- These are not the first two beats of a rising burst that starts unaligned. -/
def Clear (t : Transaction) (i j : ℕ) : Prop :=
  t.burst.addressing = .wrapping ∨ t.beatBytes ∣ t.address ∨ i ≠ 0 ∨ j ≠ 1

/-! ## Geometry -/

variable {t : Transaction} {grammar : Grammar} {line : Option Int} {start bytes beats : ℕ}

/-- The place of a transaction in plain numbers. -/
structure Layout (t : Transaction) (start bytes beats : ℕ) : Prop where
  address : t.address = start
  size : t.beatBytes = bytes
  count : t.beats = beats
  power : ∃ k, k ≤ 4 ∧ bytes = 2 ^ k
  some : 1 ≤ beats
  round : t.burst.addressing = .wrapping → ∃ m, m ≤ 4 ∧ beats = 2 ^ m

theorem WellFormed.exists_beatBytes (formed : t.WellFormed grammar line) :
    ∃ k, k ≤ 4 ∧ t.beatBytes = (2 ^ k : ℕ) := by
  have width := formed.width
  unfold beatBytes
  cases bus : t.bus with
  | ahb =>
    obtain ⟨size, sized⟩ := Option.isSome_iff_exists.mp (formed.size.mpr bus)
    rw [sized]
    cases size with
    | byte => exact ⟨0, by decide, rfl⟩
    | halfword => exact ⟨1, by decide, rfl⟩
    | word => exact ⟨2, by decide, rfl⟩
  | axi =>
    rw [bus] at width
    rw [formed.size_eq_none bus, width]
    unfold Grammar.width
    cases grammar.axiWidth with
    | w64 => exact ⟨3, by decide, rfl⟩
    | w128 => exact ⟨4, by decide, rfl⟩

/-- A wrapping burst has as many beats as its kind allows, what is no burst has one. -/
theorem WellFormed.beats_of_wrapping (formed : t.WellFormed grammar line)
    (wrapping : t.burst.addressing = .wrapping) (total : t.beats = beats) :
    ∃ m, m ≤ 4 ∧ beats = 2 ^ m := by
  have geometry := formed.geometry
  have count : beats = 1 ∨ t.burst.WrapCount beats := by
    unfold GeometryFits at geometry
    cases burst : t.burst with
    | ahb kind =>
      rw [burst] at geometry wrapping
      obtain ⟨needed, fixed⟩ : ∃ needed : ℕ, kind.beats? = some needed := by
        cases kind with
        | incr => cases wrapping
        | _ => exact ⟨_, rfl⟩
      have bursts (same : t.beats = needed) : (Burst.ahb kind).WrapCount beats := by
        obtain rfl : needed = beats := by omega
        exact fixed
      have single (none : t.length = 0) : beats = 1 := by
        unfold Transaction.beats at total
        omega
      cases operation : t.operation with
      | burstWrite =>
        rw [operation] at geometry
        exact .inr (bursts (geometry.2 needed fixed))
      | burstRead =>
        rw [operation] at geometry
        exact .inr (bursts (geometry.2 needed fixed))
      | _ =>
        rw [operation] at geometry
        exact .inl (single geometry)
    | axi kind =>
      rw [burst] at geometry wrapping
      cases kind with
      | wrap =>
        have few := geometry.2.2.1 rfl
        exact .inr (show beats = 2 ∨ beats = 4 ∨ beats = 8 ∨ beats = 16 by omega)
      | _ => cases wrapping
  rcases count with rfl | count
  · exact ⟨0, by decide, rfl⟩
  · exact count.exists_two_pow wrapping

theorem WellFormed.exists_layout (formed : t.WellFormed grammar line) :
    ∃ start bytes beats, t.Layout start bytes beats := by
  obtain ⟨start, address⟩ := Int.eq_ofNat_of_zero_le formed.address.1
  obtain ⟨k, small, size⟩ := formed.exists_beatBytes
  have some := formed.beats_pos
  obtain ⟨beats, count⟩ := Int.eq_ofNat_of_zero_le (show 0 ≤ t.beats by omega)
  refine ⟨start, 2 ^ k, beats, address, size, count, ⟨k, small, rfl⟩, by omega, fun wrapping => ?_⟩
  exact formed.beats_of_wrapping wrapping count

theorem Layout.beatCells_eq (layout : t.Layout start bytes beats) (index : ℕ) :
    t.beatCells index =
      cells (BusScript.beatAddress t.burst.addressing start index bytes beats) bytes := by
  rw [beatCells, beatAddress, layout.address, layout.size, layout.count, Int.toNat_natCast]

theorem Layout.roundCells_eq (layout : t.Layout start bytes beats) :
    t.roundCells =
      cells (start - start % (beats * bytes) + start % bytes : ℕ) (beats * bytes) := by
  have below : start % (beats * bytes) ≤ start := Nat.mod_le _ _
  rw [roundCells, layout.address, layout.size, layout.count]
  push_cast [below]
  rfl

/-! ## Beats apart -/

theorem Layout.fits (layout : t.Layout start bytes beats)
    (wrapping : t.burst.addressing = .wrapping) :
    (∃ m, beats = 2 ^ m) ∧ beats * bytes ≤ 2 ^ 32 := by
  obtain ⟨k, small, rfl⟩ := layout.power
  obtain ⟨m, few, rfl⟩ := layout.round wrapping
  refine ⟨⟨m, rfl⟩, ?_⟩
  rw [← pow_add]
  exact Nat.pow_le_pow_right (by decide) (by omega)

theorem Layout.disjoint_beatCells (layout : t.Layout start bytes beats)
    (moves : t.burst.addressing ≠ .fixed) {i j : ℕ} (order : i < j) (last : j < t.beats)
    (turn : (j - i + 1) * t.beatBytes ≤ 2 ^ 32) (clear : t.Clear i j) :
    (t.beatCells i).Disjoint (t.beatCells j) := by
  obtain ⟨k, -, power⟩ := layout.power
  rw [layout.beatCells_eq, layout.beatCells_eq]
  rw [layout.count] at last
  rw [layout.size] at turn
  rw [Clear, layout.size, layout.address, Int.natCast_dvd_natCast] at clear
  have turn : (((j - i + 1) * bytes : ℕ) : Int) ≤ 2 ^ 32 := by
    push_cast [order.le]
    exact turn
  exact disjoint_beats moves ⟨k, power⟩ layout.fits order (by omega) (by exact_mod_cast turn) clear

theorem Layout.beatCells_subset_roundCells (layout : t.Layout start bytes beats)
    (wrapping : t.burst.addressing = .wrapping) (index : ℕ) :
    t.beatCells index ⊆ t.roundCells := by
  obtain ⟨k, -, power⟩ := layout.power
  rw [layout.beatCells_eq, layout.roundCells_eq, wrapping]
  exact wrapping_beat_subset ⟨k, power⟩ (layout.fits wrapping).1 index

end Transaction

/-! ## Writes on the model -/

namespace Model

variable {t : Transaction} {grammar : Grammar} {line : Option Int} {start bytes beats : ℕ}

/-- What a write leaves in memory: the words of its beats, as far as later beats of the burst leave
them alone, and around its beats what was there before. -/
structure Leaves (t : Transaction) (before after : Store) : Prop where
  word : ∀ (i : ℕ) (inside : i < t.writtenWords.length),
    (∀ j : ℕ, i < j → j < t.beats → (t.beatCells i).Disjoint (t.beatCells j)) →
      ∀ k : ℕ, k < t.beatBytes → after.byte (t.beatAddress i + k) = byteAt t.writtenWords[i] k
  rest : ∀ place, (∀ i : ℕ, i < t.beats → cell place ∉ t.beatCells i) →
    after.byte place = before.byte place

theorem leaves_of_written (layout : t.Layout start bytes beats)
    (total : t.writtenWords.length = beats) (store : Store) :
    Leaves t store (store.writeBeats t.burst start bytes t.writtenWords) := by
  obtain ⟨k, small, power⟩ := layout.power
  have few : bytes ≤ 2 ^ 32 := by
    rw [power]
    exact Nat.pow_le_pow_right (by decide) (by omega)
  have address (i : ℕ) : t.beatAddress i = beatAddress t.burst.addressing start i bytes beats := by
    rw [Transaction.beatAddress, layout.address, layout.size, layout.count]
  have stored : store.writeBeats t.burst start bytes t.writtenWords =
      store.written (beatWrites t.beatAddress bytes t.writtenWords) := by
    rw [writeBeats_eq_written, total, Int.toNat_natCast]
    simp only [← address]
  have covered (i : ℕ) : t.beatCells i = cells (t.beatAddress i) bytes := by
    rw [Transaction.beatCells, layout.size, Int.toNat_natCast]
  rw [stored]
  constructor
  case word =>
    intro i inside kept j low
    rw [layout.size] at low
    have kept : ∀ later, i < later → later < t.writtenWords.length →
        (cells (t.beatAddress i) bytes).Disjoint (cells (t.beatAddress later) bytes) := by
      intro later behind below
      rw [← covered, ← covered]
      exact kept later behind (by rw [layout.count]; omega)
    rw [byte_written_eq, lastStored_beatWrites inside (by omega) few kept, Option.getD_some]
  case rest =>
    intro place apart
    rw [byte_written_eq, lastStored_beatWrites_eq_none, Option.getD_none]
    intro i below
    rw [← covered]
    exact apart i (by rw [layout.count]; omega)

variable {setup : Setup} {world : World}

/-- A write that the grammar accepts is carried out while no preload is outstanding. -/
theorem leaves_of_call (formed : t.WellFormed grammar line)
    (wide : setup.axiWidth = grammar.axiWidth.bits) (idle : world.pending = [])
    (writes : t.operation = .write ∨ t.operation = .burstWrite) {call : BusCall}
    (called : t.call? = some call) :
    (∃ reply, (transactor setup call world).result = .ok reply) ∧
      Leaves t world.shared (transactor setup call world).state.shared := by
  obtain ⟨start, bytes, beats, layout⟩ := formed.exists_layout
  have total : t.writtenWords.length = beats := by
    have length := formed.length_writtenWords writes
    rw [layout.count] at length
    exact_mod_cast length
  have some : 0 < bytes := by
    obtain ⟨k, -, rfl⟩ := layout.power
    exact Nat.two_pow_pos k
  have given : t.burst.beatBytes? setup.axiWidth t.shape = .some (bytes : Int) := by
    rw [wide, formed.beatBytes?_eq (.inl rfl), layout.size]
  obtain ⟨wrote, -, stored⟩ := write_of_idle idle some given t.address t.writtenWords
  have leaves := leaves_of_written layout total world.shared
  rw [← layout.address, ← stored] at leaves
  rcases writes with single | burst
  · cases (formed.call?_of_write single).symm.trans called
    rw [transactor_write formed single]
    exact ⟨⟨_, wrote⟩, leaves⟩
  · cases (formed.call?_of_burstWrite burst).symm.trans called
    rw [transactor_writeBurst burst]
    exact ⟨⟨_, wrote⟩, leaves⟩

/-- The beats of an accepted transaction that moves on are apart from each other while they are
within a turn of the memory, the first two of a rising burst if it starts aligned; those of a
wrapping burst stay within as many bytes as they are. So on the memory model a write leaves the
words of its beats in place, and everything around them as it was. -/
theorem parsed_beats_apart {text : String}
    (parsed : grammar.parse text line = .ok (.transaction t))
    (moves : t.burst.addressing ≠ .fixed) :
    (∀ i j : ℕ, i < j → j < t.beats → (j - i + 1) * t.beatBytes ≤ 2 ^ 32 → t.Clear i j →
      (t.beatCells i).Disjoint (t.beatCells j)) ∧
    (t.burst.addressing = .wrapping → ∀ i : ℕ, t.beatCells i ⊆ t.roundCells) ∧
    (t.beatBytes ∣ t.address → t.roundCells = t.containerCells) ∧
    ∀ (setup : Setup) (world : World) (call : BusCall),
      setup.axiWidth = grammar.axiWidth.bits → world.pending = [] → t.call? = some call →
      t.operation = .write ∨ t.operation = .burstWrite →
        let response := transactor setup call world
        (∃ reply, response.result = .ok reply) ∧
        (∀ (i : ℕ) (inside : i < t.writtenWords.length), (t.beats - i) * t.beatBytes ≤ 2 ^ 32 →
          (∀ j : ℕ, i < j → j < t.beats → t.Clear i j) →
            ∀ k : ℕ, k < t.beatBytes →
              response.state.shared.byte (t.beatAddress i + k) = byteAt t.writtenWords[i] k) ∧
        (∀ place, (∀ i : ℕ, i < t.beats → cell place ∉ t.beatCells i) →
          response.state.shared.byte place = world.shared.byte place) ∧
        (t.burst.addressing = .wrapping → ∀ place, cell place ∉ t.roundCells →
          response.state.shared.byte place = world.shared.byte place) := by
  have formed : t.WellFormed grammar line := Grammar.wellFormed_of_parse parsed
  obtain ⟨start, bytes, beats, layout⟩ := formed.exists_layout
  have apart (i j : ℕ) (order : i < j) (last : j < t.beats)
      (turn : (j - i + 1) * t.beatBytes ≤ 2 ^ 32) (clear : t.Clear i j) :
      (t.beatCells i).Disjoint (t.beatCells j) :=
    layout.disjoint_beatCells moves order last turn clear
  refine ⟨apart, layout.beatCells_subset_roundCells, Transaction.roundCells_of_aligned, ?_⟩
  intro setup world call wide idle called writes
  obtain ⟨answered, leaves⟩ := leaves_of_call formed wide idle writes called
  refine ⟨answered, ?words, leaves.rest, ?round⟩
  case words =>
    intro i inside turn clear k low
    refine leaves.word i inside (fun j order last => ?_) k low
    have within : (j - i + 1 : Int) * t.beatBytes ≤ (t.beats - i) * t.beatBytes := by
      rw [layout.size]
      exact Int.mul_le_mul_of_nonneg_right (by omega) (Int.natCast_nonneg _)
    exact apart i j order last (within.trans turn) (clear j order last)
  case round =>
    intro wrapping place outside
    refine leaves.rest place fun i _ inside => outside ?_
    exact layout.beatCells_subset_roundCells wrapping i inside

/-- The words of a wrapping burst that starts unaligned stay as they were written, and the first
byte of its container stays what it was. -/
theorem unaligned_wrap_keeps_apart :
    let world : World := { shared := written {} [(0, 7)] }
    let after := (transactor { axiWidth := 64 } (.writeBurst 9 [0x1122334455667788, 5] (.axi .wrap)
      (.length 1)) world).state.shared
    ∃ t, ({} : Grammar).parse "AXI BURST_WRITE 0x9 WRAP 1 0x1122334455667788 0x5" (some 1) =
        .ok (.transaction t) ∧
      t.burst.addressing = .wrapping ∧ (t.beatCells 0).Disjoint (t.beatCells 1) ∧
      after.byte 9 = 0x88 ∧ after.byte 0 = 7 := by
  intro world after
  have parsed : ({} : Grammar).parse "AXI BURST_WRITE 0x9 WRAP 1 0x1122334455667788 0x5" (some 1) =
      .ok (.transaction {
        operation := .burstWrite, address := 9, burst := .axi .wrap, width := 64, length := 1
        payload := some (.beats [0x1122334455667788, 5]), line := some 1 }) := by
    decide +kernel
  obtain ⟨apart, -, -, keeps⟩ := parsed_beats_apart parsed (by decide)
  obtain ⟨-, words, -, around⟩ := keeps { axiWidth := 64 } world _ rfl rfl rfl (.inr rfl)
  refine ⟨_, parsed, rfl, apart 0 1 (by decide) (by decide) (by decide) (.inl rfl), ?word, ?rest⟩
  case word =>
    exact words 0 (by decide) (by decide) (fun _ _ _ => .inl rfl) 0 (by decide)
  case rest => exact around rfl 0 (by decide)

/-- A burst of two words at an odd address runs into itself, a wrapping one leaves its container,
and on a burst of more bytes than there are in the memory a later beat is at the start again. -/
theorem unaligned_beats_collide :
    (∃ t, ({} : Grammar).parse "AHB BURST_WRITE 0x1 INCR WORD 0x44332211 0x88776655" (some 1) =
        .ok (.transaction t) ∧ t.beats = 2 ∧ ¬ (t.beatCells 0).Disjoint (t.beatCells 1)) ∧
      (∃ t, ({} : Grammar).parse "AXI READ 0x1 WRAP 1" (some 1) = .ok (.transaction t) ∧
        t.beats = 2 ∧ ¬ t.beatCells 1 ⊆ t.containerCells) ∧
      beatAddress .rising 0 (2 ^ 30) 4 (2 ^ 30 + 1) = beatAddress .rising 0 0 4 (2 ^ 30 + 1) := by
  refine ⟨⟨{
    operation := .burstWrite, address := 1, burst := .ahb .incr, width := 32, size := some .word
    length := 1, payload := some (.beats [0x44332211, 0x88776655]), line := some 1 },
    by decide +kernel, rfl, ?overlap⟩, ⟨{
    operation := .read, address := 1, burst := .axi .wrap, width := 64, length := 1
    line := some 1 }, by decide +kernel, rfl, ?leave⟩, by decide⟩
  case overlap =>
    intro apart
    exact apart (show 4 ∈ _ by decide) (show 4 ∈ _ by decide)
  case leave =>
    intro inside
    exact absurd (inside (show 16 ∈ _ by decide)) (by decide)

end Model

end BusScript
