import BusScript.Run.Engine

/-!
# Noted benches

What a run asks of its surroundings, whatever these are. Any bench can note what it is asked for,
one note for each call, wait and preload, in their order; it answers as it did before. So a
statement about the notes of every noted bench is a statement about what every bench is asked for.
-/

namespace BusScript

/-- Something that a bench was asked for. The answer is `none` where the bench failed. -/
inductive Asked
  /-- A bus operation. -/
  | call (bus : Bus) (call : BusCall)
  /-- A wait for a number of cycles. -/
  | cycles (count : Nat)
  /-- A preload, and the handle that was issued for it. -/
  | preload (target dataFile : String) (handle : Option Nat)
  /-- A wait for a preload, and whether it reported completion. -/
  | completion (handle : Nat) (completed : Option Bool)
  deriving DecidableEq, Repr

/-- The state of a bench, and what it was asked for so far. -/
structure Noted (σ : Type) where
  world : σ
  history : List Asked := []

variable {σ α : Type}

/-- The effect with a note of it. -/
def Effect.noted (effect : Effect σ α) (note : Option α → Asked) : Effect (Noted σ) α :=
  fun state =>
    let response := effect state.world
    { result := response.result
      state := ⟨response.state, state.history ++ [note response.result.toOption]⟩
      logs := response.logs }

def Transactor.noted (bus : Bus) (transactor : Transactor σ) : Transactor (Noted σ) :=
  fun call => Effect.noted (transactor call) fun _ => .call bus call

def Loader.noted (loader : Loader σ) : Loader (Noted σ) where
  request target dataFile :=
    Effect.noted (loader.request target dataFile) (.preload target dataFile)
  done handle state := loader.done handle state.world
  wait handle bound := Effect.noted (loader.wait handle bound) (.completion handle)

/-- The bench with a note of everything that it is asked for. -/
def Bench.noted (bench : Bench σ) : Bench (Noted σ) where
  ahb := bench.ahb.map (Transactor.noted .ahb)
  axi := bench.axi.map (Transactor.noted .axi)
  clock := bench.clock.map fun clock count => Effect.noted (clock count) fun _ => .cycles count
  loader := bench.loader.map Loader.noted

/-- The engine on the noted bench. -/
def Engine.noted (e : Engine σ) : Engine (Noted σ) :=
  { e with bench := e.bench.noted }

theorem Bench.transactor?_noted (bench : Bench σ) (bus : Bus) :
    bench.noted.transactor? bus = (bench.transactor? bus).map (Transactor.noted bus) := by
  cases bus <;> rfl

/-- The transactors of the noted bench are those of the bench, each with its notes. -/
theorem Engine.transactor?_noted_eq_some_iff {e : Engine σ} {bus : Bus}
    {transactor : Transactor (Noted σ)} :
    e.noted.bench.transactor? bus = some transactor ↔
      ∃ plain, e.bench.transactor? bus = some plain ∧ plain.noted bus = transactor := by
  rw [Engine.noted, Bench.transactor?_noted, Option.map_eq_some_iff]

end BusScript
