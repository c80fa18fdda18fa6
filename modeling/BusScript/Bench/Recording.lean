import BusScript.Bench.Basic

/-!
# Recording benches

Scripted surroundings that note what they are asked for. A transactor answers reads from a queue and
then from a default; a preload handle behaves by its mode.
-/

namespace BusScript.Recording

/-! ## State -/

/-- How a preload handle behaves. -/
inductive Mode
  /-- It is done from the start. -/
  | done
  /-- A wait makes it done. -/
  | fires
  /-- A wait reports completion while the handle does not count as done. -/
  | lags
  /-- A wait changes nothing. -/
  | never
  deriving DecidableEq, Repr

def Mode.name : Mode → String
  | .done => "done"
  | .fires => "fires"
  | .lags => "lags"
  | .never => "never"

def Mode.all : List Mode := [.done, .fires, .lags, .never]

/-- A preload handle with the bounds of the waits for it. -/
structure Handle where
  mode : Mode
  done : Bool
  waits : List TimeBound := []

/-- A recording transactor. -/
structure Recorder where
  /-- The answers to the reads to come. -/
  answers : List Data := []
  /-- The word that every later read gives. -/
  default : Int := 0
  /-- The calls so far. -/
  calls : List BusCall := []
  deriving DecidableEq, Repr

/-- The state of a recording bench. -/
structure World where
  ahb : Recorder := {}
  axi : Recorder := {}
  /-- The cycles of each clock wait. -/
  waits : List Nat := []
  /-- The preloads asked for, by target and file. -/
  requests : List (String × String) := []
  handles : List Handle := []

/-! ## Transactors -/

/-- The next answer of the queue, if there is one left, and the recorder without it. -/
def Recorder.answer (recorder : Recorder) : Option Data × Recorder :=
  (recorder.answers.head?, { recorder with answers := recorder.answers.tail })

/-- The recorder after a call, and its answer: a word of the queue to a read, the beats of the queue
to a read of a burst, and after the queue the default on every beat. -/
def Recorder.call (recorder : Recorder) (call : BusCall) : call.Reply × Recorder :=
  let noted := { recorder with calls := recorder.calls ++ [call] }
  match call with
  | .write .. => ((), noted)
  | .writeBurst .. => ((), noted)
  | .read .. => match noted.answer with
    | (some data, rest) => (data.toList.headD noted.default, rest)
    | (none, rest) => (noted.default, rest)
  | .readBurst _ _ length _ => match noted.answer with
    | (some data, rest) => (data.toList, rest)
    | (none, rest) => (List.replicate (beatCount length) noted.default, rest)

def ahb : Transactor World := fun call world =>
  let (reply, recorder) := world.ahb.call call
  ⟨.ok reply, { world with ahb := recorder }, []⟩

def axi : Transactor World := fun call world =>
  let (reply, recorder) := world.axi.call call
  ⟨.ok reply, { world with axi := recorder }, []⟩

/-- A transactor that knows no call. -/
def abstract {σ : Type} : Transactor σ := fun _ world =>
  ⟨.error .notImplemented, world, []⟩

/-- A clock that notes the waits. -/
def clock : Nat → Effect World Unit := fun cycles world =>
  ⟨.ok (), { world with waits := world.waits ++ [cycles] }, []⟩

/-! ## Preloads -/

/-- The mode of a handle; the last mode repeats. -/
def modeOf (modes : List Mode) (handle : Nat) : Mode :=
  (modes[handle]?.or modes.getLast?).getD .done

/-- The world with a handle changed. -/
def World.changeHandle (world : World) (handle : Nat) (change : Handle → Handle) : World :=
  { world with handles := world.handles.modify handle change }

/-- The handle becomes done. -/
def World.fire (world : World) (handle : Nat) : World :=
  world.changeHandle handle fun h => { h with done := true }

/-- The handle after a wait, and whether it reports completion. -/
def Handle.wait (bound : TimeBound) (handle : Handle) : Bool × Handle :=
  let noted := { handle with waits := handle.waits ++ [bound] }
  match handle.mode with
  | .done | .never => (handle.done, noted)
  | .fires => (true, { noted with done := true })
  | .lags => (true, noted)

/-- A loader whose handles have modes. -/
def loader (modes : List Mode) : Loader World where
  request target dataFile := fun world =>
    let handle := world.handles.length
    let mode := modeOf modes handle
    ⟨.ok handle, { world with
      requests := world.requests ++ [(target, dataFile)]
      handles := world.handles ++ [{ mode, done := decide (mode = .done) }] }, []⟩
  done handle world := match world.handles[handle]? with
    | some h => h.done
    | none => false
  wait handle bound := fun world =>
    match world.handles[handle]? with
    | some h => ⟨.ok (h.wait bound).1, world.changeHandle handle fun h => (h.wait bound).2, []⟩
    | none => ⟨.ok false, world, []⟩

end BusScript.Recording
