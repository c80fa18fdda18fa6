import BusScript.Action
import BusScript.Config
import BusScript.Log

/-!
# Benches

The surroundings that a script runs in: transactors for the buses, a clock and a loader for
preloads, each of which may be missing. A bench has a state of its own. What it is asked for changes
that state, may write to the log, and gives an answer or fails.
-/

namespace BusScript

/-- Why the surroundings give no answer. None of it is a script error: that what is attached raises
none is an assumption, which this type makes. A script error from the surroundings would be counted
and skipped like one of a line, while every other fault of theirs ends the run. -/
inductive CallFault
  /-- The transactor does not know the call. -/
  | notImplemented
  /-- A single AXI write says nothing about its beats. -/
  | noLength
  /-- The size of an AHB transfer is two to a negative power. -/
  | negativeSize
  /-- A beat of the burst has no address. -/
  | noBeatAddress
  deriving DecidableEq, Repr

def CallFault.message : CallFault → String
  | .notImplemented => ""
  | .noLength => "unsupported operand type(s) for +: 'NoneType' and 'int'"
  | .negativeSize => "negative shift count"
  | .noBeatAddress => noAddress

/-- What asking the surroundings leads to: an answer or one of the faults above, and so no script
error. The state and the log go on either way. -/
structure Response (σ α : Type) where
  result : Except CallFault α
  state : σ
  logs : List LogRecord := []

/-- Something to ask the surroundings for. -/
abbrev Effect (σ α : Type) := σ → Response σ α

/-! ## Transactors -/

/-- A bus operation as a transactor sees it. -/
inductive BusCall
  | write (address data : Int) (burst : Burst) (shape : Shape)
  | read (address : Int) (burst : Burst) (shape : Shape)
  | writeBurst (address : Int) (beats : List Int) (burst : Burst) (shape : Shape)
  /-- `length` is one less than the beats, and `shape` says how large they are. -/
  | readBurst (address : Int) (burst : Burst) (length : Int) (shape : Shape)
  deriving DecidableEq, Repr

/-- What a transactor answers: a word to a read, the beats in order to a read of a burst. -/
@[reducible]
def BusCall.Reply : BusCall → Type
  | .write .. => Unit
  | .read .. => Int
  | .writeBurst .. => Unit
  | .readBurst .. => List Int

/-- The beats of a burst whose length is one less. -/
def beatCount (length : Int) : Nat :=
  (length + 1).toNat

/-- A transactor carries out bus operations. -/
abbrev Transactor (σ : Type) := (call : BusCall) → Effect σ call.Reply

/-! ## Loaders -/

/-- A loader takes preloads on and gives each a handle, by which its completion can be asked for
and waited for. -/
structure Loader (σ : Type) where
  request : (target dataFile : String) → Effect σ Nat
  done : (handle : Nat) → σ → Bool
  /-- Whether the preload completed within the bound. -/
  wait : (handle : Nat) → TimeBound → Effect σ Bool

/-! ## Benches -/

structure Bench (σ : Type) where
  ahb : Option (Transactor σ) := none
  axi : Option (Transactor σ) := none
  /-- Waiting for a number of cycles. -/
  clock : Option (Nat → Effect σ Unit) := none
  loader : Option (Loader σ) := none

/-- The transactor of a bus, where one is attached. -/
def Bench.transactor? {σ : Type} (bench : Bench σ) : Bus → Option (Transactor σ)
  | .ahb => bench.ahb
  | .axi => bench.axi

end BusScript
