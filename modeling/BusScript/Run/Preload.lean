import BusScript.Run.State

/-!
# Coordination of preloads

A preload runs in the background while the script goes on. Only one is kept track of: a second
request waits for the first, up to a bound. If the wait runs into its bound, the timeout is counted;
then either the new request goes ahead, while the old preload is not called off, or the run stops
and nothing is asked for.
-/

namespace BusScript

/-- What coordinates the preloads of a run. -/
structure Coordinator (σ : Type) where
  loader : Loader σ
  timeout : TimeBound
  policy : PreloadPolicy

namespace Coordinator

variable {σ : Type}

/-- What coordinates preloads under the policy of a name. -/
def ofPolicyName (loader : Loader σ) (timeout : TimeBound) (name : Option String) :
    Except SettingsFault (Coordinator σ) :=
  match name.bind PreloadPolicy.ofName? with
  | some policy => .ok { loader, timeout, policy }
  | none => .error (.unknownCoordinatorPolicy (shownSetting name))

variable (c : Coordinator σ)

/-- Change the state of preloads. -/
def change (f : PreloadState → PreloadState) : Run σ Unit :=
  modify fun s => { s with preloads := f s.preloads }

/-- The preload in progress has come to its end. -/
def release : Run σ Unit := do
  change fun state => { state with inProgress := false }
  change fun state => { state with completion := none }

/-- Take note of a completed preload. -/
def poll : Run σ Unit := do
  let s ← get
  if s.preloads.inProgress then
    if let some handle := s.preloads.completion then
      if c.loader.done handle s.world then
        let some last := s.preloads.lastRequest | throw (.missing "target_path")
        Run.say .debug .preload s!"Preload of {last.target} complete"
        release

/-- What a wait that ran into its bound is reported with. -/
def timeoutMessage (request : Preload) : String :=
  let told := s!"preload of {request.target} from {request.dataFile} "
    ++ s!"did not complete within {c.timeout.text}"
  match request.line with
  | none => told
  | some line => s!"line {line}: {told}"

/-- Wait for the outstanding preload, if there is one; false if the wait ran into its bound. A
handle that reports completion is believed even if it does not count as done yet. -/
def waitOutstanding (reason : String) : Run σ Bool := do
  c.poll
  let state := (← get).preloads
  if !state.inProgress then return true
  let some last := state.lastRequest | throw (.missing "target_path")
  Run.say .info .preload s!"Waiting for preload of {last.target} ({reason})"
  let some handle := state.completion | throw (.missing "wait")
  if ← Run.ask (c.loader.wait handle c.timeout) then
    c.poll
    release
    return true
  Run.count Results.recordTimeout
  Run.say .error .preload s!"Timeout: {c.timeoutMessage last}"
  match c.policy with
  | .abort => throw (.preloadTimeout (c.timeoutMessage last))
  | .lastWins => return false

/-- Ask for a preload, after the wait for an outstanding one; false if that wait ran into its
bound. It counts as asked for even if the loader fails on it. -/
def request (preload : Preload) : Run σ Bool := do
  let completed ← c.waitOutstanding s!"new request for {preload.target}"
  change (.withLast preload)
  let handle ← Run.ask (c.loader.request preload.target preload.dataFile)
  change fun state => { state with completion := some handle }
  change fun state => { state with inProgress := true }
  Run.say .info .preload s!"Preload {preload.target} <- {preload.dataFile}"
  return completed

/-- Wait for an outstanding preload at the end of a script. -/
def settle : Run σ Bool :=
  c.waitOutstanding "end of script"

/-- The phase after taking note of a completed preload. -/
def phase : Run σ String := do
  c.poll
  return (← get).preloads.phase

end Coordinator

end BusScript
