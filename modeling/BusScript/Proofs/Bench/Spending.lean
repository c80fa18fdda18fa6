import BusScript.Bench.Model

/-!
# Cycles and transfers of the memory model

Cycles go by in the model in one place, and transfers are counted in another. What a part of the
model adds to either is put down as what it spends (`Spends`): a transfer takes the cycles of its
beats and counts once, however many they are, and preloads take no cycles wherever they run.
-/

namespace BusScript.Model

/-- The transfers that were made on a bus. -/
def World.transfers (world : World) : Bus → Nat
  | .ahb => world.ahbTransfers
  | .axi => world.axiTransfers

/-- So many cycles go by, and so many transfers are made on each bus. -/
structure Spends (cycles : Nat) (transfers : Bus → Nat) (before after : World) : Prop where
  cycles : after.cycles = before.cycles + cycles
  transfers : ∀ bus, after.transfers bus = before.transfers bus + transfers bus

/-- No cycles go by, and no transfer is made. -/
abbrev Still : World → World → Prop :=
  Spends 0 fun _ => 0

/-- One transfer on a bus. -/
def oneOn (bus : Bus) : Bus → Nat :=
  fun other => if bus = other then 1 else 0

section

variable {first later : Nat} {made more : Bus → Nat} {before middle after : World}

theorem Spends.of_fields (cycles : after.cycles = before.cycles + first)
    (ahb : after.ahbTransfers = before.ahbTransfers + made .ahb)
    (axi : after.axiTransfers = before.axiTransfers + made .axi) :
    Spends first made before after where
  cycles := cycles
  transfers bus := by
    cases bus with
    | ahb => exact ahb
    | axi => exact axi

theorem Still.refl (world : World) : Still world world :=
  ⟨rfl, fun _ => rfl⟩

theorem Spends.append (start : Spends first made before middle)
    (rest : Spends later more middle after) :
    Spends (first + later) (fun bus => made bus + more bus) before after where
  cycles := by rw [rest.cycles, start.cycles, Nat.add_assoc]
  transfers bus := by rw [rest.transfers, start.transfers, Nat.add_assoc]

/-- What spends nothing may come before. -/
theorem Spends.preceded (rest : Spends later more middle after)
    (start : Still before middle) : Spends later more before after where
  cycles := by rw [rest.cycles, start.cycles, Nat.add_zero]
  transfers bus := by rw [rest.transfers, start.transfers, Nat.add_zero]

/-- What spends nothing may come behind. -/
theorem Spends.followed (start : Spends first made before middle)
    (rest : Still middle after) : Spends first made before after where
  cycles := by rw [rest.cycles, start.cycles, Nat.add_zero]
  transfers bus := by rw [rest.transfers, start.transfers, Nat.add_zero]

end

variable {setup : Setup}

/-! ## Preloads -/

theorem still_runLoad (world : World) (load : Load) :
    Still world (runLoad setup world load).1 := by
  unfold runLoad
  split
  · exact .refl world
  · dsimp only
    split
    · exact .refl world
    · rename_i target _ _ _ _
      cases target with
      | named path => exact .of_fields rfl rfl rfl
      | shared => exact .of_fields rfl rfl rfl

theorem still_runLoads (world : World) (loads : List Load) :
    Still world (runLoads setup world loads).1 := by
  induction loads generalizing world with
  | nil => exact .refl world
  | cons load rest ih => exact (ih _).preceded (still_runLoad world load)

/-- The preloads that are left over spend nothing. -/
theorem still_pending (world : World) (pending : List Load) :
    Still world { world with pending } :=
  .of_fields rfl rfl rfl

theorem still_finishLoads (world : World) : Still world (finishLoads setup world).1 :=
  (still_runLoads world world.pending).followed (still_pending _ [])

theorem still_yieldTo (times : Nat) (world : World) :
    Still world (yieldTo setup times world).1 := by
  unfold yieldTo
  split
  · exact .refl world
  · exact (still_runLoads world _).followed (still_pending _ _)

theorem still_waitForLoad (handle : Nat) (bound : TimeBound) (world : World) :
    Still world (waitForLoad setup handle bound world).2.1 := by
  unfold waitForLoad
  cases setup.pace with
  | turn number =>
    dsimp only
    split
    · exact .refl world
    · exact still_finishLoads world
  | seconds count =>
    dsimp only
    split
    · exact .refl world
    · split
      · exact still_finishLoads world
      · exact .refl world

theorem still_request (target dataFile : String) (world : World) :
    Still world ((loader setup).request target dataFile world).state :=
  .of_fields rfl rfl rfl

/-! ## Cycles -/

theorem spends_passCycles (cycles : Nat) (world : World) :
    Spends cycles (fun _ => 0) world (passCycles setup cycles world).1 := by
  unfold passCycles
  split
  · rename_i none
    rw [none]
    exact Still.refl world
  · have passed : Spends cycles (fun _ => 0) world { world with cycles := world.cycles + cycles } :=
      .of_fields rfl rfl rfl
    exact passed.followed (still_yieldTo cycles _)

/-- Beats of a latency below zero take no cycles. -/
theorem toNat_mul_latency {beats : Int} (some : 0 ≤ beats) (latency : Int) :
    (beats * latency).toNat = latency.toNat * beats.toNat := by
  rcases Int.le_total 0 latency with positive | negative
  · rw [Int.toNat_mul some positive, Nat.mul_comm]
  · have none : beats * latency ≤ 0 := Int.mul_nonpos_of_nonneg_of_nonpos some negative
    rw [Int.toNat_of_nonpos none, Int.toNat_of_nonpos negative, Nat.zero_mul]

theorem spends_tick (clocked : setup.clocked) (bus : Bus) {beats : Int} (some : 0 ≤ beats)
    (world : World) :
    Spends (setup.latency.toNat * beats.toNat) (oneOn bus) world
      (tick setup bus beats world).1 := by
  rw [← toNat_mul_latency some]
  unfold tick
  rw [if_pos clocked]
  have passed {counted : World} (once : Spends 0 (oneOn bus) world counted) :
      Spends (beats * setup.latency).toNat (oneOn bus) world
        (passCycles setup (beats * setup.latency).toNat counted).1 := by
    constructor
    · rw [(spends_passCycles _ _).cycles, once.cycles, Nat.add_zero]
    · intro other
      rw [(spends_passCycles _ _).transfers, once.transfers, Nat.add_zero]
  cases bus with
  | ahb => exact passed (.of_fields rfl rfl rfl)
  | axi => exact passed (.of_fields rfl rfl rfl)

/-! ## Transfers -/

variable {burst : Burst} {address : Int} {shape : Shape} {world : World}

theorem spends_write (clocked : setup.clocked) {words : List Int}
    (done : (write setup burst address shape words world).result = .ok ()) :
    Spends (setup.latency.toNat * words.length) (oneOn burst.bus) world
      (write setup burst address shape words world).state := by
  unfold write at done ⊢
  split at done
  · cases done
  · split at done
    · rename_i placed
      rw [if_pos placed]
      have stored (shared : Store) : Still world { world with shared } :=
        .of_fields rfl rfl rfl
      exact (spends_tick clocked burst.bus (Int.natCast_nonneg words.length) _).preceded (stored _)
    · cases done

theorem spends_read (clocked : setup.clocked) {length : Int} (some : 0 ≤ length)
    {words : List Int}
    (done : (read setup burst address shape length world).result = .ok words) :
    Spends (setup.latency.toNat * beatCount length) (oneOn burst.bus) world
      (read setup burst address shape length world).state := by
  unfold read at done ⊢
  split at done
  · cases done
  · dsimp only at done ⊢
    split at done
    · rename_i placed
      rw [if_pos placed]
      exact spends_tick clocked burst.bus (by omega) world
    · cases done

end BusScript.Model
