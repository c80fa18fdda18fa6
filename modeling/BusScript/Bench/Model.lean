import BusScript.Files.Tree
import BusScript.Memory.Image
import BusScript.Memory.Transfer
import BusScript.Bench.Basic
import BusScript.Text.Utf8

/-!
# The memory model

A bench without a simulator: both buses reach one byte store, a clock counts cycles, and preloads
read memory images from files. Each beat takes the same number of cycles. Values are stored lowest
byte first, and a narrow write stores the low bytes of its word at the address of the transfer.

A preload is started at once but comes to run only when the script yields: when cycles go by, when a
transfer is made by a transactor that has no clock, or when its handle is waited for. Preloads run
in the order in which they were started, at the pace of the model.
-/

namespace BusScript.Model

/-! ## Setup and state -/

/-- When a preload runs. -/
inductive Pace
  /-- When the script yields for the so many-th time after its start. -/
  | turn (number : Nat)
  /-- While it is waited for, when so many seconds have passed. -/
  | seconds (count : Float)

/-- The pace of preloads that take so many seconds. One that takes none runs in its first turn; one
of a negative time gives the first turn away and runs in the second. -/
def Pace.ofSeconds (count : Float) : Pace :=
  if count == 0 then .turn 1
  else if count < 0 then .turn 2
  else .seconds count

/-- What stays fixed in a model. -/
structure Setup where
  /-- Data width of the AXI transactor, in bits. -/
  axiWidth : Int
  /-- The transactors count cycles. -/
  clocked : Bool := true
  /-- Cycles of one beat. -/
  latency : Int := 1
  /-- The files that images are read from. -/
  files : Tree := {}
  /-- What relative paths of images are seen from. -/
  baseDir : Option Path := none
  /-- The bytes of one image word. -/
  wordBytes : Nat := 4
  /-- Unknown targets are the shared store. -/
  targetsShared : Bool := false
  /-- When preloads run. -/
  pace : Pace := .turn 1

/-- A preload that was started. -/
structure Load where
  handle : Nat
  target : String
  dataFile : String
  /-- The turns it has had. -/
  turns : Nat := 0
  deriving DecidableEq, Repr

/-- What changes in a model. -/
structure World where
  /-- The store behind both buses. -/
  shared : Store := {}
  /-- Stores that only preloads reach, by their paths. -/
  memories : List (String × Store) := []
  cycles : Nat := 0
  ahbTransfers : Nat := 0
  axiTransfers : Nat := 0
  /-- The number of preloads started. -/
  started : Nat := 0
  /-- The preloads that have not run yet, in their order. -/
  pending : List Load := []
  /-- The targets of the preloads that succeeded, in their order. -/
  loaded : List String := []

/-! ## Preloads -/

/-- The store of a target path. -/
inductive Target
  | named (path : String)
  | shared
  deriving DecidableEq, Repr

/-- The target that a path names. -/
def target? (setup : Setup) (world : World) (path : String) : Option Target :=
  if world.memories.any (·.1 == path) then some (.named path)
  else if setup.targetsShared then some .shared
  else none

/-- The world with the store of a target changed. -/
def World.changeTarget (world : World) (target : Target) (change : Store → Store) : World :=
  match target with
  | .shared => { world with shared := change world.shared }
  | .named path =>
    { world with memories := world.memories.map fun (name, store) =>
        if name = path then (name, change store) else (name, store) }

/-- Why a data file gives no image. -/
inductive ImageFault
  | cannotOpen (path : String) (fault : OpenFault)
  | notText (fault : Text.Utf8.Fault)
  | malformed (fault : Image.Fault)
  deriving DecidableEq, Repr

def ImageFault.message : ImageFault → String
  | .cannotOpen path fault => fault.message path
  | .notText fault => fault.message
  | .malformed fault => fault.message

/-- The path that a data file is read from. -/
def imagePath (setup : Setup) (dataFile : String) : Path :=
  let path := Path.ofString dataFile
  match setup.baseDir with
  | some base => base.join path
  | none => path

/-- The image in the file of a path. -/
def readImage (setup : Setup) (path : Path) : Except ImageFault Image := do
  let bytes ← (setup.files.read path.toString).mapError (.cannotOpen path.toString)
  let text ← (Text.Utf8.decodeAll bytes).mapError .notText
  (Image.ofText text).mapError .malformed

/-- The world after a preload, and what it writes to the log. A preload that fails changes
nothing. -/
def runLoad (setup : Setup) (world : World) (load : Load) : World × LogRecord :=
  match target? setup world load.target with
  | none => (world, ⟨.error, .model, s!"Preload target {load.target} not found"⟩)
  | some target =>
    let path := imagePath setup load.dataFile
    match readImage setup path with
    | .error fault =>
      (world, ⟨.error, .model,
        s!"Preload of {load.target} from {path.toString} failed: {fault.message}"⟩)
    | .ok image =>
      let stored := world.changeTarget target (image.load setup.wordBytes)
      ({ stored with loaded := stored.loaded ++ [load.target] },
        ⟨.info, .model, s!"Preloaded {image.words.length} words into {load.target}"⟩)

/-- The world after preloads that run one after the other. -/
def runLoads (setup : Setup) (world : World) : List Load → World × List LogRecord
  | [] => (world, [])
  | load :: rest =>
    let (world, told) := runLoad setup world load
    let (world, later) := runLoads setup world rest
    (world, told :: later)

/-- All started preloads run. -/
def finishLoads (setup : Setup) (world : World) : World × List LogRecord :=
  let (after, logs) := runLoads setup world world.pending
  ({ after with pending := [] }, logs)

/-- The script yields so many times. The preloads whose turn has come by then run. -/
def yieldTo (setup : Setup) (times : Nat) (world : World) : World × List LogRecord :=
  match setup.pace with
  | .seconds _ => (world, [])
  | .turn turn =>
    let (ready, others) :=
      (world.pending.map fun load => { load with turns := load.turns + times }).partition
        fun load => turn ≤ load.turns
    let (after, logs) := runLoads setup world ready
    ({ after with pending := others }, logs)

/-- Cycles go by. -/
def passCycles (setup : Setup) (cycles : Nat) (world : World) : World × List LogRecord :=
  if cycles = 0 then (world, [])
  else yieldTo setup cycles { world with cycles := world.cycles + cycles }

/-- The seconds of a time bound, which counts nanoseconds. -/
def seconds (bound : TimeBound) : Float :=
  bound.toFloat * 1e-9

/-- Seconds that the first turn of a wait takes at most. -/
def turnSeconds : Float := 1e-6

/-- A preload that was started and is not pending any more. -/
def isFinished (world : World) (handle : Nat) : Bool :=
  handle < world.started && !world.pending.any (·.handle == handle)

/-- Whether a wait for a preload sees its completion. One that is finished is seen to be so within
any bound, and a wait of some time still gives the others their turn. Preloads that run in a turn
all do so during the wait. A preload in its last turn is seen to complete unless the bound rounds to
no time at all; with a turn more to go it needs a bound longer than that turn. Preloads that take
some seconds complete if the bound is longer than that. -/
def waitForLoad (setup : Setup) (handle : Nat) (bound : TimeBound) (world : World) :
    Bool × World × List LogRecord :=
  let finished := isFinished world handle
  match setup.pace with
  | .turn turn =>
    if finished && !(0 < seconds bound : Bool) then (true, world, [])
    else
      let isLast := world.pending.all fun load => load.handle ≠ handle || turn ≤ load.turns + 1
      let (world, logs) := finishLoads setup world
      (finished || (if isLast then 0 else turnSeconds) < seconds bound, world, logs)
  | .seconds count =>
    if finished then (true, world, [])
    else if count < seconds bound then
      let (world, logs) := finishLoads setup world
      (true, world, logs)
    else (false, world, [])

/-- The loader that loads images into stores. -/
def loader (setup : Setup) : Loader World where
  request target dataFile := fun world =>
    let handle := world.started
    ⟨.ok handle, { world with
      started := handle + 1
      pending := world.pending ++ [{ handle, target, dataFile }] }, []⟩
  done handle world := isFinished world handle
  wait handle bound := fun world =>
    let (completed, world, logs) := waitForLoad setup handle bound world
    ⟨.ok completed, world, logs⟩

/-! ## Transactors -/

/-- The world after a transfer of so many beats: it is counted, and its cycles go by. -/
def tick (setup : Setup) (bus : Bus) (beats : Int) (world : World) : World × List LogRecord :=
  let counted := match bus with
    | .ahb => { world with ahbTransfers := world.ahbTransfers + 1 }
    | .axi => { world with axiTransfers := world.axiTransfers + 1 }
  if setup.clocked then passCycles setup (beats * setup.latency).toNat counted
  else yieldTo setup 1 counted

/-- The beats that the shape of a single write asks for: one on AHB, and on AXI as many as the
length says. A size that stands in for a length counts by its code. -/
def beatsOf? (burst : Burst) (shape : Shape) : Option Nat :=
  match burst, shape with
  | .ahb _, _ => some 1
  | .axi _, .length length => some (beatCount length)
  | .axi _, .size (some size) => some (beatCount size.code)
  | .axi _, .size none => none

/-- A write stores its data before its cycles go by. -/
def write (setup : Setup) (burst : Burst) (address : Int) (shape : Shape) (words : List Int) :
    Effect World Unit := fun world =>
  match burst.beatBytes? setup.axiWidth shape with
  | none => ⟨.error .negativeSize, world, []⟩
  | some bytes =>
    if burst.hasAddresses bytes words.length then
      let stored := { world with shared := world.shared.writeBeats burst address bytes words }
      let (world, logs) := tick setup burst.bus words.length stored
      ⟨.ok (), world, logs⟩
    else ⟨.error .noBeatAddress, world, []⟩

/-- A read of `length + 1` beats fetches its data after its cycles have gone by. -/
def read (setup : Setup) (burst : Burst) (address : Int) (shape : Shape) (length : Int) :
    Effect World (List Int) := fun world =>
  match burst.beatBytes? setup.axiWidth shape with
  | none => ⟨.error .negativeSize, world, []⟩
  | some bytes =>
    let beats := beatCount length
    let (world, logs) := tick setup burst.bus (length + 1) world
    if burst.hasAddresses bytes beats then
      ⟨.ok (world.shared.readBeats burst address bytes beats), world, logs⟩
    else ⟨.error .noBeatAddress, world, logs⟩

/-- The transactor of a bus on the shared store. A single AXI write of several beats puts the same
word on every beat. -/
def transactor (setup : Setup) : Transactor World
  | .write address data burst shape => match beatsOf? burst shape with
    | some beats => write setup burst address shape (List.replicate beats data)
    | none => fun world => ⟨.error .noLength, world, []⟩
  | .read address burst shape => fun world =>
    let response := read setup burst address shape 0 world
    ⟨response.result.map (·.headD 0), response.state, response.logs⟩
  | .writeBurst address beats burst shape => write setup burst address shape beats
  | .readBurst address burst length shape => read setup burst address shape length

/-- The clock of the model. -/
def clock (setup : Setup) : Nat → Effect World Unit := fun cycles world =>
  let (world, logs) := passCycles setup cycles world
  ⟨.ok (), world, logs⟩

/-- The model as a bench. -/
def bench (setup : Setup) : Bench World where
  ahb := some (transactor setup)
  axi := some (transactor setup)
  clock := some (clock setup)
  loader := some (loader setup)

end BusScript.Model
