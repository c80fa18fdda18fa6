import BusScript.Bench.Model
import BusScript.Proofs.Memory.Transfer

/-!
# The memory model while no preload is outstanding

Without preloads to run, cycles that go by leave the store alone. A write then stores the bytes of
its transaction and nothing else, and a read stores nothing and observes what was stored last.
-/

namespace BusScript.Model

open Store

/-- If no preload is outstanding, the store changes by some writes, and still none is outstanding.
-/
def Stored (writes : List (Nat × UInt8)) (before after : World) : Prop :=
  before.pending = [] →
    after.pending = [] ∧ after.shared = before.shared.written writes

theorem Stored.refl (world : World) : Stored [] world world :=
  fun idle => ⟨idle, rfl⟩

theorem Stored.append {first later : List (Nat × UInt8)} {before middle after : World}
    (start : Stored first before middle) (rest : Stored later middle after) :
    Stored (first ++ later) before after := by
  intro idle
  obtain ⟨idle, stored⟩ := start idle
  obtain ⟨idle, more⟩ := rest idle
  exact ⟨idle, by rw [more, stored, written_append]⟩

instance : Std.Refl (Stored []) where
  refl := Stored.refl

instance : IsTrans World (Stored []) where
  trans _ _ _ := Stored.append

/-! ## Cycles and preloads -/

section

variable (setup : Setup) (world : World)

theorem yieldTo_of_idle (idle : world.pending = []) (times : Nat) :
    yieldTo setup times world = (world, []) := by
  have same : { world with pending := [] } = world := by rw [← idle]
  unfold yieldTo
  cases setup.pace with
  | seconds count => rfl
  | turn number => simp [idle, runLoads, same]

theorem stored_yieldTo (times : Nat) : Stored [] world (yieldTo setup times world).1 := by
  intro idle
  rw [yieldTo_of_idle setup world idle]
  exact ⟨idle, rfl⟩

theorem stored_passCycles (cycles : Nat) : Stored [] world (passCycles setup cycles world).1 := by
  unfold passCycles
  split
  · exact .refl world
  · exact stored_yieldTo setup { world with cycles := world.cycles + cycles } cycles

theorem stored_tick (bus : Bus) (beats : Int) : Stored [] world (tick setup bus beats world).1 := by
  have passed (counted : World) : Stored [] counted (if setup.clocked then
      passCycles setup (beats * setup.latency).toNat counted else yieldTo setup 1 counted).1 := by
    split
    · exact stored_passCycles setup counted _
    · exact stored_yieldTo setup counted 1
  unfold tick
  cases bus with
  | ahb => exact passed { world with ahbTransfers := world.ahbTransfers + 1 }
  | axi => exact passed { world with axiTransfers := world.axiTransfers + 1 }

theorem stored_finishLoads : Stored [] world (finishLoads setup world).1 := by
  intro idle
  unfold finishLoads
  rw [idle]
  exact ⟨rfl, rfl⟩

theorem stored_waitForLoad (handle : Nat) (bound : TimeBound) :
    Stored [] world (waitForLoad setup handle bound world).2.1 := by
  unfold waitForLoad
  cases setup.pace with
  | turn number =>
    dsimp only
    split
    · exact .refl world
    · exact stored_finishLoads setup world
  | seconds count =>
    dsimp only
    split
    · exact .refl world
    · split
      · exact stored_finishLoads setup world
      · exact .refl world

end

/-! ## Transfers -/

variable {setup : Setup} {world : World}

theorem stored_read (burst : Burst) (address : Int) (shape : Shape) (length : Int) :
    Stored [] world (read setup burst address shape length world).state := by
  unfold read
  cases burst.beatBytes? setup.axiWidth shape with
  | none => exact .refl world
  | some bytes =>
    dsimp only
    split
    · exact stored_tick setup world burst.bus (length + 1)
    · exact stored_tick setup world burst.bus (length + 1)

section

variable {t : Transaction} {grammar : Grammar} {line : Option Int}

/-- A write that succeeds stores the bytes of its transaction. -/
theorem stored_of_write (formed : t.WellFormed grammar line)
    (width : setup.axiWidth = grammar.axiWidth.bits)
    (writes : t.operation = .write ∨ t.operation = .burstWrite)
    (done : (write setup t.burst t.address t.shape t.writtenWords world).result = .ok ()) :
    Stored t.stores world (write setup t.burst t.address t.shape t.writtenWords world).state := by
  unfold write at done ⊢
  rw [width, formed.beatBytes?_eq (.inl rfl)] at done ⊢
  dsimp only at done ⊢
  rw [formed.writeBeats_eq writes] at done ⊢
  split at done
  · rename_i placed
    rw [if_pos placed]
    have stored : Stored t.stores world
        { world with shared := world.shared.written t.stores } := fun idle => ⟨idle, rfl⟩
    have whole := stored.append (stored_tick setup _ t.burst.bus t.writtenWords.length)
    rwa [List.append_nil] at whole
  · cases done

/-- A read that succeeds observes what was stored before. -/
theorem observes_of_read (formed : t.WellFormed grammar line)
    (width : setup.axiWidth = grammar.axiWidth.bits) {shape : Shape}
    (given : shape = t.shape ∨ shape = .size t.size) {words : List Int}
    {writes : List (Nat × UInt8)} (idle : world.pending = [])
    (stored : world.shared = written {} writes)
    (done : (read setup t.burst t.address shape t.length world).result = .ok words) :
    t.Observes writes words := by
  have same := (stored_tick setup world t.burst.bus (t.length + 1) idle).2
  unfold read at done
  rw [width, formed.beatBytes?_eq given] at done
  dsimp only at done
  split at done
  · cases done
    rw [same, stored]
    exact formed.observes_readBeats writes
  · cases done

theorem length_of_read {burst : Burst} {address : Int} {shape : Shape} {length : Int}
    {words : List Int} (done : (read setup burst address shape length world).result = .ok words) :
    words.length = beatCount length := by
  unfold read at done
  split at done
  · cases done
  · dsimp only at done
    split at done
    · cases done
      rw [readBeats, List.length_map, List.length_range]
    · cases done

/-! ## Transactors -/

/-- A single write reaches the store as the words of its beats. -/
theorem transactor_write (formed : t.WellFormed grammar line) (single : t.operation = .write) :
    transactor setup (.write t.address t.payloadWord t.burst t.shape) =
      write setup t.burst t.address t.shape t.writtenWords := by
  have beats : beatsOf? t.burst t.shape = some t.beats.toNat := by
    cases burst : t.burst with
    | ahb kind =>
      rw [formed.beats_eq_one (by rw [Transaction.bus, burst, Burst.bus]) (.inl single)]
      rfl
    | axi kind =>
      rw [Transaction.shape, Transaction.bus, burst]
      rfl
  rw [transactor, beats, Transaction.writtenWords, if_pos single]

/-- A burst write brings its own words. -/
theorem transactor_writeBurst (burst : t.operation = .burstWrite) :
    transactor setup (.writeBurst t.address t.payloadBeats t.burst t.shape) =
      write setup t.burst t.address t.shape t.writtenWords := by
  rw [transactor, Transaction.writtenWords, burst, if_neg (by decide)]

/-- A single read gives the one word that it reads. -/
theorem read_of_transactor_read {address : Int} {burst : Burst} {shape : Shape} {word : Int}
    (done : (transactor setup (.read address burst shape) world).result = .ok word) :
    (read setup burst address shape 0 world).result = .ok [word] := by
  unfold transactor at done
  dsimp only at done
  cases response : (read setup burst address shape 0 world).result with
  | error fault =>
    rw [response] at done
    cases done
  | ok words =>
    obtain ⟨value, rfl⟩ := List.length_eq_one_iff.mp (length_of_read response)
    rw [response] at done
    cases done
    rfl

end

end BusScript.Model
