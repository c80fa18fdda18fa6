import BusScript.Bus.Address

/-!
# Actions

What a script line asks for, fully resolved: a bus transaction, a poll, a wait or a preload. An
action is made from one line, executed once and dropped.
-/

namespace BusScript

/-- One word, or the words of a burst in beat order. -/
inductive Data
  | word (value : Int)
  | beats (values : List Int)
  deriving DecidableEq, Repr

/-- The words in beat order. -/
def Data.toList : Data → List Int
  | .word value => [value]
  | .beats values => values

/-- Beat data whose count does not fit the burst. -/
inductive BeatMismatch
  /-- An AHB burst of a fixed beat count, written with another count of data. -/
  | ahbWrite (kind : AhbBurst) (needed given : Nat)
  /-- An AHB read of so many beats with another count of expected words. -/
  | ahbRead (beats given : Nat)
  /-- An AXI burst whose written length asks for another count of data. -/
  | axiWrite (length given : Nat)
  /-- An AXI read whose length reads another count of beats than are expected. -/
  | axiRead (length given : Nat)
  deriving DecidableEq, Repr

def BeatMismatch.reason : BeatMismatch → String
  | .ahbWrite kind needed given =>
    s!"beat count mismatch: {kind.name} burst needs {needed} data beats, got {given}"
  | .ahbRead beats given =>
    s!"beat count mismatch: {beats} beats read, {given} expected values given"
  | .axiWrite length given =>
    s!"beat count mismatch: len={length} writes {length + 1} beats, {given} data values given"
  | .axiRead length given =>
    s!"beat count mismatch: len={length} reads {length + 1} beats, {given} expected values given"

/-- What travels beside an address: the transfer size on AHB, which may be left to the default, and
on AXI the burst length, one less than the beats. -/
inductive Shape
  | size (size : Option AhbSize)
  | length (length : Int)
  deriving DecidableEq, Repr

/-- A bus transaction. Single words travel in AHB reads and in writes of one data word, beats in
all else. -/
structure Transaction where
  operation : Operation
  address : Int
  burst : Burst
  /-- The data width in bits. -/
  width : Int
  /-- The transfer size, on AHB only. -/
  size : Option AhbSize := none
  /-- One less than the beats. -/
  length : Int := 0
  payload : Option Data := none
  expected : Option Data := none
  line : Option Int := none
  /-- Expected words were given that cannot be compared with the beats. -/
  mismatch : Option BeatMismatch := none
  /-- The family that checks name: that of the burst's bus, if no other is stated. -/
  protocol : Protocol := .bus burst.bus
  deriving DecidableEq, Repr

namespace Transaction

def bus (t : Transaction) : Bus := t.burst.bus

def beats (t : Transaction) : Int := t.length + 1

def isRead (t : Transaction) : Bool :=
  t.operation = .read || t.operation = .burstRead

/-- The bytes of one beat: those of the transfer size, else of the data width. -/
def beatBytes (t : Transaction) : Int :=
  match t.size with
  | some size => size.bytes
  | none => t.width / 8

/-- What the transaction hands over beside its address. -/
def shape (t : Transaction) : Shape :=
  match t.bus with
  | .ahb => .size t.size
  | .axi => .length t.length

/-- The data word of a single write. -/
def payloadWord (t : Transaction) : Int :=
  ((t.payload.map Data.toList).getD []).headD 0

/-- The data words of a burst write. -/
def payloadBeats (t : Transaction) : List Int :=
  (t.payload.map Data.toList).getD []

/-- The address of a beat, by the rule of the burst kind. -/
def beatAddress (t : Transaction) (index : Nat) : Int :=
  BusScript.beatAddress t.burst.addressing t.address index t.beatBytes t.beats

/-- The beat has an address. -/
def hasBeatAddress (t : Transaction) (index : Nat) : Bool :=
  BusScript.hasBeatAddress t.burst.addressing index t.beatBytes t.beats

end Transaction

/-- Reading a register until its masked bits are the expected ones, or the reads run out. -/
structure Poll where
  bus : Bus
  address : Int
  expected : Int
  mask : Int
  /-- The reads it makes at most; without a limit stated it makes none. -/
  maxPolls : Option Int
  /-- The data width in bits. -/
  width : Int
  line : Option Int := none
  /-- The family that checks name: that of the bus, if no other is stated. -/
  protocol : Protocol := .bus bus
  deriving DecidableEq, Repr

/-- Idling for a number of clock cycles. -/
structure Wait where
  cycles : Nat
  line : Option Int := none
  deriving DecidableEq, Repr

/-- Filling a memory from a data file. -/
structure Preload where
  target : String
  dataFile : String
  line : Option Int := none
  deriving DecidableEq, Repr

/-- What one script line asks for. -/
inductive Action
  | transaction (request : Transaction)
  | poll (request : Poll)
  | wait (request : Wait)
  | preload (request : Preload)
  deriving DecidableEq, Repr

end BusScript
