import BusScript.Proofs.Run.Serial
import Mathlib.Data.List.Basic

/-!
# Timeouts of preloads

A wait that runs into its bound is told of by an answer or by a fault, as the policy says, and is
one timeout either way. A call of a loader that answers comes to one of three things (`Called`): it
has settled, its preload was taken on, or its wait stopped it. A call that was stopped has asked for
no preload and forgets nothing, so the next one waits for the same handle again (`Stalled`). All
other requests were passed on to the loader, and the outstanding preload is the last of them
(`Tracked`), so it is this one that a timeout names.
-/

namespace BusScript

variable {σ : Type}

/-! ## Loaders -/

/-- The loader takes every preload on, and every wait for one ends. -/
structure Loader.Answers (loader : Loader σ) : Prop where
  request : ∀ target dataFile world, ∃ handle,
    (loader.request target dataFile world).result = .ok handle
  wait : ∀ handle bound world, ∃ completed,
    (loader.wait handle bound world).result = .ok completed

/-- The loader takes every preload on; a wait for one may end in any way. -/
def Loader.Grants (loader : Loader σ) : Prop :=
  ∀ target dataFile world, ∃ handle, (loader.request target dataFile world).result = .ok handle

theorem Loader.Grants.noted {loader : Loader σ} (grants : loader.Grants) : loader.noted.Grants :=
  fun target dataFile state => grants target dataFile state.world

theorem Loader.Answers.grants {loader : Loader σ} (answers : loader.Answers) : loader.Grants :=
  answers.request

theorem Loader.Answers.noted {loader : Loader σ} (answers : loader.Answers) :
    loader.noted.Answers where
  request target dataFile state := answers.request target dataFile state.world
  wait handle bound state := answers.wait handle bound state.world

/-- A preload that was asked for: its target, its file and the handle that was issued for it. -/
def Asked.load? : Asked → Option (String × String × Option Nat)
  | .preload target dataFile handle => some (target, dataFile, handle)
  | _ => none

namespace Coordinator

open Run

/-! ## Calls -/

/-- A call that waits for the outstanding preload. -/
inductive Call
  | request (p : Preload)
  | settle

/-- The preload that a call asks for. -/
def Call.preload? : Call → Option Preload
  | .request p => some p
  | .settle => none

def call (c : Coordinator σ) : Call → Run σ Bool
  | .request p => c.request p
  | .settle => c.settle

/-- The wait of a call ran into its bound, as its answer or its fault says. -/
def ranOut : Except RunFault Bool → Bool
  | .ok completed => !completed
  | .error (.preloadTimeout _) => true
  | .error _ => false

section

variable {c : Coordinator σ} {s t : RunState σ} {r : Except RunFault Bool}

/-- All that a call of a loader that answers can come to. -/
inductive Called (c : Coordinator σ) (s : RunState σ) :
    Call → Except RunFault Bool → RunState σ → Prop
  | settled {completed : Bool} {t : RunState σ} :
      Waited c s (.ok completed) t → Called c s .settle (.ok completed) t
  /-- The loader took the preload on. -/
  | issued {p : Preload} {completed : Bool} {m : RunState σ} {handle : Nat}
      {log : Array LogRecord} :
      Waited c s (.ok completed) m →
      (c.loader.request p.target p.dataFile m.world).result = .ok handle →
      Called c s (.request p) (.ok completed) { m with
        world := (c.loader.request p.target p.dataFile m.world).state
        preloads := .outstanding handle p
        log }
  /-- The wait ran into its bound, and the policy is to stop. -/
  | stopped {call : Call} {handle : Nat} {p : Preload} {log : Array LogRecord} :
      c.policy = .abort → s.preloads = .outstanding handle p →
      c.loader.done handle s.world = false →
      (c.loader.wait handle c.timeout s.world).result = .ok false →
      Called c s call (.error (.preloadTimeout (c.timeoutMessage p))) { s with
        world := (c.loader.wait handle c.timeout s.world).state
        results := s.results.recordTimeout
        log }

/-- A wait of a loader that answers is stopped by nothing but its bound. -/
theorem Waited.stopped (answers : c.loader.Answers) (sound : s.preloads.Sound) {fault : RunFault}
    (waited : Waited c s (.error fault) t) (call : Call) : Called c s call (.error fault) t := by
  generalize result : (.error fault : Except RunFault Bool) = r at waited
  cases waited with
  | timedOut outstanding undone answer =>
    obtain ⟨told, policy⟩ := error_eq_timedOut_iff.mp result
    rw [← result, told]
    exact .stopped policy outstanding undone answer
  | @failed handle _ _ _ _ _ answer =>
    obtain ⟨completed, answered⟩ := answers.wait handle c.timeout s.world
    rw [answered] at answer
    cases answer
  | broken unsound => exact absurd sound unsound
  | _ => cases result

theorem called_of_ends (answers : c.loader.Answers) (sound : s.preloads.Sound) {call : Call}
    (ended : Ends (c.call call) s r t) : Called c s call r t := by
  cases call with
  | settle =>
    have waited := waited_of_waitOutstanding ended
    cases r with
    | ok completed => exact .settled waited
    | error fault => exact waited.stopped answers sound .settle
  | request p =>
    cases requested_of_request ended with
    | issued waited answer => exact .issued waited answer
    | @failed _ m _ _ _ answer =>
      obtain ⟨handle, answered⟩ := answers.request p.target p.dataFile m.world
      rw [answered] at answer
      cases answer
    | stopped waited => exact waited.stopped answers sound (.request p)

/-- A call counts a timeout if its wait ran into its bound, and none otherwise. -/
theorem Called.timeouts_eq {call : Call} (called : Called c s call r t) :
    t.results.timeouts = s.results.timeouts + if ranOut r then 1 else 0 := by
  have counted {completed : Bool} {m : RunState σ} (waited : Waited c s (.ok completed) m) :
      m.results.timeouts = s.results.timeouts + if ranOut (.ok completed) then 1 else 0 := by
    rw [waited.counted.1]
    cases completed <;> rfl
  cases called with
  | settled waited => exact counted waited
  | issued waited answer =>
    have same := counted waited
    exact same
  | stopped => rfl

theorem sound_of_call {call : Call} (ended : Ends (c.call call) s r t)
    (sound : s.preloads.Sound) : t.preloads.Sound := by
  cases call with
  | request p => exact (requested_of_request ended).sound sound
  | settle => exact (waited_of_waitOutstanding ended).sound sound

/-! ## Messages -/

/-- A wait that ran into its bound is one for the outstanding preload, and tells of it. -/
theorem told_of_waitOutstanding {reason : String} (ended : Ends (c.waitOutstanding reason) s r t)
    (bound : ranOut r = true) :
    ∃ handle p before, s.preloads = .outstanding handle p ∧
      c.loader.done handle s.world = false ∧ r = c.timedOut p ∧
      t.log = (s.log ++ before).push (c.timeoutRecord p) := by
  cases waited_of_waitOutstanding ended with
  | @timedOut handle p log outstanding undone answer =>
    obtain ⟨waiting, begun⟩ := exists_waitOutstanding_undone reason outstanding undone
    have asked : ask (c.loader.wait handle c.timeout) { s with log := s.log.push waiting } =
        .ok false _ := ask_ok_iff.mpr ⟨answer, rfl⟩
    have rest := (ends_congr (begun.trans (bind_apply asked))).mp ended
    have same := congrArg RunState.log (rest.unique (answered_false_ends p _)).2
    refine ⟨handle, p, #[waiting] ++ (c.loader.wait handle c.timeout s.world).logs.toArray,
      outstanding, undone, rfl, ?_⟩
    rw [← Array.append_assoc]
    exact same
  | _ => cases bound

/-- A call whose wait ran into its bound tells of the preload that it waited for. -/
theorem told_of_call {call : Call} (ended : Ends (c.call call) s r t) (bound : ranOut r = true) :
    ∃ handle p before after, s.preloads = .outstanding handle p ∧
      c.loader.done handle s.world = false ∧ r = c.timedOut p ∧
      t.log = (s.log ++ before).push (c.timeoutRecord p) ++ after := by
  cases call with
  | settle =>
    obtain ⟨handle, p, before, outstanding, undone, told, log⟩ :=
      told_of_waitOutstanding ended bound
    exact ⟨handle, p, before, #[], outstanding, undone, told, log⟩
  | request q =>
    rcases ends_bind_iff.mp ended with ⟨completed, m, waited, ended⟩ | ⟨fault, rfl, waited⟩
    · have ended := (ends_congr (bind_apply (change_apply _ m))).mp ended
      rcases ends_bind_iff.mp ended with ⟨handle, n, asked, ended⟩ | ⟨fault, rfl, asked⟩
      · obtain ⟨-, rfl⟩ := ask_ok_iff.mp asked
        cases r with
        | ok told =>
          cases ended
          obtain ⟨handle, p, before, outstanding, undone, told, log⟩ :=
            told_of_waitOutstanding waited bound
          refine ⟨handle, p, before, (c.loader.request q.target q.dataFile m.world).logs.toArray ++
            #[⟨.info, .preload, s!"Preload {q.target} <- {q.dataFile}"⟩], outstanding, undone,
            told, ?_⟩
          rw [← log, ← Array.append_assoc]
          rfl
        | error fault => cases ended
      · obtain ⟨reason, -, rfl, -⟩ := ask_error_iff.mp asked
        cases bound
    · obtain ⟨handle, p, before, outstanding, undone, told, log⟩ :=
        told_of_waitOutstanding waited bound
      exact ⟨handle, p, before, #[], outstanding, undone, told, log⟩

end

/-! ## Courses -/

/-- What happens to a coordinator between two calls: it takes note of a completed preload, or
preloads get done. -/
inductive Quiet (c : Coordinator (Noted σ)) : RunState (Noted σ) → RunState (Noted σ) → Prop
  | poll {s t : RunState (Noted σ)} {r : Except RunFault Unit} : Ends c.poll s r t → Quiet c s t
  | phase {s t : RunState (Noted σ)} {r : Except RunFault String} : Ends c.phase s r t → Quiet c s t
  | between (s : RunState (Noted σ)) (world : σ) :
      Quiet c s { s with world := { s.world with world } }

/-- The calls of a coordinator, each with its outcome, whatever happens between them. -/
inductive Course (c : Coordinator (Noted σ)) (s : RunState (Noted σ)) :
    List (Call × Except RunFault Bool) → RunState (Noted σ) → Prop
  | start : Course c s [] s
  | quiet {calls : List (Call × Except RunFault Bool)} {m t : RunState (Noted σ)} :
      Course c s calls m → Quiet c m t → Course c s calls t
  | call {calls : List (Call × Except RunFault Bool)} {m t : RunState (Noted σ)} {call : Call}
      {r : Except RunFault Bool} :
      Course c s calls m → Ends (c.call call) m r t → Course c s (calls ++ [(call, r)]) t

/-- The preloads of the requests that were answered, in their order. -/
def taken (calls : List (Call × Except RunFault Bool)) : List Preload :=
  calls.filterMap fun (call, outcome) => outcome.toOption.bind fun _ => call.preload?

/-- The loader was asked for the preloads of the answered requests and for no others. Each was
granted a handle, and the outstanding one is the last of them, under its handle. The state that is
kept of it is sound. -/
structure Tracked (calls : List (Call × Except RunFault Bool)) (granted : List (Preload × Nat))
    (t : RunState (Noted σ)) : Prop where
  sound : t.preloads.Sound
  taken : granted.map (·.1) = taken calls
  asked : t.world.history.filterMap Asked.load? =
    granted.map fun (p, handle) => (p.target, p.dataFile, some handle)
  last : ∀ handle p, t.preloads = .outstanding handle p → granted.getLast? = some (p, handle)

variable {c : Coordinator σ} {s m t : RunState (Noted σ)} {r : Except RunFault Bool}
  {calls : List (Call × Except RunFault Bool)} {granted : List (Preload × Nat)}

/-! ## Between calls -/

/-- What happens between calls counts nothing and asks for nothing. It makes no preload the
outstanding one, and leaves that as it is unless it is done. -/
structure Undisturbed (c : Coordinator σ) (s t : RunState (Noted σ)) : Prop where
  results : t.results = s.results
  history : t.world.history = s.world.history
  known : ∀ handle p, t.preloads = .outstanding handle p → s.preloads = .outstanding handle p
  kept : ∀ handle p, s.preloads = .outstanding handle p →
    c.loader.done handle s.world.world = false → t.preloads = .outstanding handle p

theorem undisturbed_of_poll {q : Except RunFault Unit} (ended : Ends c.noted.poll s q t) :
    Undisturbed c s t := by
  rcases eq_or_done_of_poll ended with rfl | ⟨handle, p, log, outstanding, done, rfl⟩
  · exact ⟨rfl, rfl, fun _ _ same => same, fun _ _ same _ => same⟩
  · refine ⟨rfl, rfl, fun _ _ same => (by cases same), fun _ _ same undone => ?_⟩
    rw [outstanding] at same
    cases same
    exact absurd (undone.symm.trans done) (by decide)

theorem Quiet.undisturbed (quiet : Quiet c.noted s t) : Undisturbed c s t := by
  cases quiet with
  | poll ended => exact undisturbed_of_poll ended
  | phase ended =>
    obtain ⟨_, polled⟩ := exists_poll_of_phase ended
    exact undisturbed_of_poll polled
  | between world => exact ⟨rfl, rfl, fun _ _ same => same, fun _ _ same _ => same⟩

/-! ## Soundness -/

theorem Quiet.sound {c : Coordinator (Noted σ)} (quiet : Quiet c s t) (sound : s.preloads.Sound) :
    t.preloads.Sound := by
  cases quiet with
  | poll ended => exact sound_of_poll ended sound
  | phase ended =>
    obtain ⟨_, polled⟩ := exists_poll_of_phase ended
    exact sound_of_poll polled sound
  | between world => exact sound

/-- Whatever a coordinator is called for and whatever happens between the calls, the state of
preloads stays sound: one is in progress exactly as long as its handle is kept. -/
theorem sound_of_course {c : Coordinator (Noted σ)} (course : Course c s calls t)
    (sound : s.preloads.Sound) : t.preloads.Sound := by
  induction course with
  | start => exact sound
  | quiet _ quiet ih => exact quiet.sound ih
  | call _ ended ih => exact sound_of_call ended ih

/-! ## Preloads asked for -/

/-- A wait asks for no preload. -/
theorem load?_wait (handle : Nat) (bound : TimeBound) (state : Noted σ) :
    (c.noted.loader.wait handle bound state).state.history.filterMap Asked.load? =
      state.history.filterMap Asked.load? := by
  show (state.history ++ [_]).filterMap Asked.load? = _
  rw [List.filterMap_append]
  exact List.append_nil _

theorem load?_request {target dataFile : String} {handle : Nat} {state : Noted σ}
    (answer : (c.noted.loader.request target dataFile state).result = .ok handle) :
    (c.noted.loader.request target dataFile state).state.history.filterMap Asked.load? =
      state.history.filterMap Asked.load? ++ [(target, dataFile, some handle)] := by
  have answer : (c.loader.request target dataFile state.world).result = .ok handle := answer
  show (state.history ++ [Asked.preload target dataFile
    (c.loader.request target dataFile state.world).result.toOption]).filterMap Asked.load? = _
  rw [answer, List.filterMap_append]
  rfl

theorem Waited.load?_eq (waited : Waited c.noted s r t) :
    t.world.history.filterMap Asked.load? = s.world.history.filterMap Asked.load? := by
  cases waited with
  | idle resting => rfl
  | done outstanding done => rfl
  | broken unsound => rfl
  | _ => exact load?_wait _ _ _

/-- A wait makes no preload the outstanding one. -/
theorem Waited.known {c : Coordinator σ} {s t : RunState σ} (waited : Waited c s r t) {handle : Nat}
    {p : Preload} (outstanding : t.preloads = .outstanding handle p) :
    s.preloads = .outstanding handle p := by
  cases waited with
  | done => cases outstanding
  | answered => cases outstanding
  | _ => exact outstanding

theorem taken_concat (call : Call) (r : Except RunFault Bool) :
    taken (calls ++ [(call, r)]) =
      taken calls ++ (r.toOption.bind fun _ => call.preload?).toList := by
  unfold taken
  rw [List.filterMap_append]
  cases answered : r.toOption.bind fun _ => call.preload? <;> simp [answered]

theorem Tracked.quiet (tracked : Tracked calls granted s) (quiet : Quiet c.noted s t) :
    Tracked calls granted t where
  sound := quiet.sound tracked.sound
  taken := tracked.taken
  asked := by rw [quiet.undisturbed.history, tracked.asked]
  last handle p outstanding := tracked.last handle p (quiet.undisturbed.known handle p outstanding)

/-- A call that grants nothing is no more than its wait. -/
theorem Tracked.waited (tracked : Tracked calls granted s) {call : Call}
    (waited : Waited c.noted s r t) (untaken : (r.toOption.bind fun _ => call.preload?) = none) :
    Tracked (calls ++ [(call, r)]) granted t where
  sound := waited.sound tracked.sound
  taken := by
    rw [taken_concat, untaken, tracked.taken]
    exact (List.append_nil _).symm
  asked := by rw [waited.load?_eq, tracked.asked]
  last handle p outstanding := tracked.last handle p (waited.known outstanding)

/-- A call of a loader that takes every preload on is one more request that is answered and granted,
or it grants nothing. -/
theorem Tracked.call (grants : c.loader.Grants) (tracked : Tracked calls granted s) {call : Call}
    (ended : Ends (c.noted.call call) s r t) :
    ∃ more, Tracked (calls ++ [(call, r)]) (granted ++ more) t := by
  cases call with
  | settle =>
    refine ⟨[], ?_⟩
    rw [List.append_nil]
    exact tracked.waited (waited_of_waitOutstanding ended) (Option.bind_fun_none r.toOption)
  | request p =>
    cases requested_of_request ended with
    | @issued completed m handle log waited answer =>
      refine ⟨[(p, handle)], PreloadState.sound_of_outstanding rfl, ?_, ?_, ?_⟩
      · rw [List.map_append, taken_concat, tracked.taken]
        rfl
      · rw [load?_request answer, waited.load?_eq, tracked.asked, List.map_append]
        rfl
      · intro found q outstanding
        cases outstanding
        exact List.getLast?_concat
    | @failed completed m log reason waited answer =>
      obtain ⟨handle, granted⟩ := grants.noted p.target p.dataFile m.world
      cases granted.symm.trans answer
    | stopped waited =>
      refine ⟨[], ?_⟩
      rw [List.append_nil]
      exact tracked.waited waited rfl

theorem exists_tracked_of_course (grants : c.loader.Grants) (fresh : s.preloads = .idle none)
    (unasked : s.world.history = []) (course : Course c.noted s calls t) :
    ∃ granted, Tracked calls granted t := by
  induction course with
  | start =>
    refine ⟨[], PreloadState.sound_of_idle fresh, rfl, by rw [unasked]; rfl,
      fun handle p outstanding => ?_⟩
    rw [fresh] at outstanding
    cases outstanding
  | quiet _ quiet ih =>
    obtain ⟨granted, tracked⟩ := ih
    exact ⟨granted, tracked.quiet quiet⟩
  | call _ ended ih =>
    obtain ⟨granted, tracked⟩ := ih
    obtain ⟨more, tracked⟩ := tracked.call grants ended
    exact ⟨_, tracked⟩

/-! ## Stopped calls -/

/-- The coordinator goes on while a preload is not done: nothing is called, or a call is stopped. -/
inductive Stalled (c : Coordinator (Noted σ)) (handle : Nat) (s : RunState (Noted σ)) :
    RunState (Noted σ) → Prop
  | start : Stalled c handle s s
  | quiet {m t : RunState (Noted σ)} :
      Stalled c handle s m → c.loader.done handle m.world = false → Quiet c m t →
      Stalled c handle s t
  | stopped {m t : RunState (Noted σ)} {call : Call} {fault : RunFault} :
      Stalled c handle s m → c.loader.done handle m.world = false →
      Ends (c.call call) m (.error fault) t → Stalled c handle s t

/-- While it is not done, no call that is stopped loses sight of the outstanding preload. -/
theorem Stalled.preloads_eq (answers : c.loader.Answers) {handle : Nat} {p : Preload}
    (outstanding : s.preloads = .outstanding handle p) (stalled : Stalled c.noted handle s t) :
    t.preloads = .outstanding handle p := by
  induction stalled with
  | start => exact outstanding
  | quiet _ undone quiet ih => exact quiet.undisturbed.kept handle p ih undone
  | stopped _ undone ended ih =>
    cases called_of_ends answers.noted (PreloadState.sound_of_outstanding ih) ended with
    | stopped => exact ih

theorem Waited.history_eq {completed : Bool} (waited : Waited c.noted s (.ok completed) t)
    {handle : Nat} {p : Preload} (outstanding : s.preloads = .outstanding handle p)
    (undone : c.loader.done handle s.world.world = false) :
    t.world.history = s.world.history ++ [.completion handle (some completed)] := by
  generalize result : (.ok completed : Except RunFault Bool) = r at waited
  cases waited with
  | idle resting =>
    rw [outstanding] at resting
    cases resting
  | done other done =>
    rw [outstanding] at other
    cases other
    exact absurd (undone.symm.trans done) (by decide)
  | answered other _ answer =>
    rw [outstanding] at other
    cases other
    cases result
    exact history_wait answer
  | @timedOut _ q _ other _ answer =>
    rw [outstanding] at other
    cases other
    obtain ⟨rfl, -⟩ := ok_eq_timedOut_iff.mp result
    exact history_wait answer
  | failed other _ answer => cases result
  | broken unsound => cases result

/-- A call waits for the outstanding preload first if that is not done. -/
theorem waits_of_call (answers : c.loader.Answers) {handle : Nat} {p : Preload} {call : Call}
    (outstanding : s.preloads = .outstanding handle p)
    (undone : c.loader.done handle s.world.world = false)
    (ended : Ends (c.noted.call call) s r t) :
    ∃ later, t.world.history =
      s.world.history ++ .completion handle (some !ranOut r) :: later := by
  have sound := PreloadState.sound_of_outstanding outstanding
  cases called_of_ends answers.noted sound ended with
  | @settled completed _ waited =>
    refine ⟨[], ?_⟩
    rw [waited.history_eq outstanding undone, ranOut, Bool.not_not]
  | @issued q completed m _ _ waited answer =>
    have history := waited.history_eq outstanding undone
    refine ⟨[Asked.preload q.target q.dataFile
      (c.loader.request q.target q.dataFile m.world.world).result.toOption], ?_⟩
    show m.world.history ++ _ = _
    rw [history, ranOut, Bool.not_not, List.append_assoc]
    rfl
  | stopped _ other _ answer =>
    rw [outstanding] at other
    cases other
    exact ⟨[], history_wait answer⟩

/-! ## Timeouts in turn -/

/-- The wait of a call ran into its bound. It was the wait for the outstanding preload, and the
message names the target and the file of that, and its line if it has one. -/
structure RanOut (c : Coordinator σ) (r : Except RunFault Bool) (s t : RunState (Noted σ))
    (handle : Nat) (p : Preload) : Prop where
  outstanding : s.preloads = .outstanding handle p
  waited : s.world.history ++ [.completion handle (some false)] <+: t.world.history
  told : ∃ message before after,
    message = (p.line.elim "" fun line => s!"line {line}: ") ++
      s!"preload of {p.target} from {p.dataFile} did not complete within {c.timeout.text}" ∧
    t.log = (s.log ++ before).push ⟨.error, .preload, s!"Timeout: {message}"⟩ ++ after ∧
    ∀ fault, r = .error fault → fault = .preloadTimeout message

/-- A call that was stopped asked for no preload and forgot nothing. However often the coordinator
is called while the preload is not done, the next call waits for the same handle again. -/
structure Stopped (c : Coordinator σ) (s t : RunState (Noted σ)) (handle : Nat) : Prop where
  preloads : t.preloads = s.preloads
  history : t.world.history = s.world.history ++ [.completion handle (some false)]
  again : ∀ u, Stalled c.noted handle t u → u.preloads = s.preloads ∧
    (c.loader.done handle u.world.world = false → ∀ call r v, Ends (c.noted.call call) u r v →
      ∃ later, v.world.history = u.world.history ++ .completion handle (some !ranOut r) :: later)

theorem timeoutMessage_eq (c : Coordinator σ) (p : Preload) :
    c.timeoutMessage p = (p.line.elim "" fun line => s!"line {line}: ") ++
      s!"preload of {p.target} from {p.dataFile} did not complete within {c.timeout.text}" := by
  have spaced (text : String) :
      " " ++ ("did not complete within " ++ text) = " did not complete within " ++ text := by
    rw [← String.append_assoc]
    rfl
  unfold timeoutMessage
  cases p.line with
  | none => simp only [toString, Option.elim, String.append_assoc, String.empty_append, spaced]
  | some line => simp only [toString, Option.elim, String.append_assoc, spaced]

theorem timeouts_eq_of_course (answers : c.loader.Answers) (sound : s.preloads.Sound)
    (course : Course c.noted s calls t) :
    t.results.timeouts = s.results.timeouts + calls.countP (ranOut ·.2) := by
  induction course with
  | start => rfl
  | quiet _ quiet ih => rw [quiet.undisturbed.results, ih]
  | call before ended ih =>
    have called := called_of_ends answers.noted (sound_of_course before sound) ended
    rw [called.timeouts_eq, ih, List.countP_append, List.countP_singleton, Nat.add_assoc]

/-- What holds of every call holds of the calls of a course. -/
theorem forall_of_course {P : Call × Except RunFault Bool → Prop} (answers : c.loader.Answers)
    (each : ∀ {call r s t}, Called c.noted s call r t → P (call, r)) (sound : s.preloads.Sound)
    (course : Course c.noted s calls t) : ∀ call ∈ calls, P call := by
  induction course with
  | start => exact List.forall_mem_nil _
  | quiet _ _ ih => exact ih
  | call before ended ih =>
    have last := each (called_of_ends answers.noted (sound_of_course before sound) ended)
    exact List.forall_mem_append.mpr ⟨ih, List.forall_mem_singleton.mpr last⟩

theorem taken_eq (answered : ∀ call ∈ calls, ∃ completed, call.2 = .ok completed) :
    taken calls = calls.filterMap (·.1.preload?) := by
  refine List.filterMap_congr fun call member => ?_
  obtain ⟨call, outcome⟩ := call
  obtain ⟨completed, rfl⟩ := answered _ member
  rfl

theorem ranOut_of_error (answers : c.loader.Answers) (sound : s.preloads.Sound) {call : Call}
    {fault : RunFault} (ended : Ends (c.noted.call call) s (.error fault) t) :
    ranOut (.error fault) = true := by
  cases called_of_ends answers.noted sound ended with
  | stopped => rfl

/-- A call that ends with a fault was stopped by its wait. -/
theorem stopped_of_call (answers : c.loader.Answers) {handle : Nat} {p : Preload}
    (outstanding : s.preloads = .outstanding handle p) {call : Call} {fault : RunFault}
    (ended : Ends (c.noted.call call) s (.error fault) t) : Stopped c s t handle := by
  have sound := PreloadState.sound_of_outstanding outstanding
  cases called_of_ends answers.noted sound ended with
  | stopped _ other _ answer =>
    rw [outstanding] at other
    cases other
    refine ⟨rfl, history_wait answer, fun u stalled => ?_⟩
    have preloads : u.preloads = .outstanding handle p := by
      refine stalled.preloads_eq answers ?_
      exact outstanding
    refine ⟨preloads.trans outstanding.symm, fun undone call r v ended => ?_⟩
    exact waits_of_call answers preloads undone ended

/-- The wait that ran into its bound was for the outstanding preload, which the messages name. -/
theorem ranOut_of_call (answers : c.loader.Answers) {call : Call}
    (ended : Ends (c.noted.call call) s r t) (bound : ranOut r = true) :
    ∃ handle p, RanOut c r s t handle p := by
  obtain ⟨handle, p, before, after, outstanding, undone, told, log⟩ := told_of_call ended bound
  obtain ⟨later, history⟩ := waits_of_call answers outstanding undone ended
  refine ⟨handle, p, outstanding, ?_, c.timeoutMessage p, before, after, timeoutMessage_eq c p,
    log, fun fault equal => ?_⟩
  · rw [history, bound]
    exact ⟨later, by rw [List.append_assoc]; rfl⟩
  · rw [equal] at told
    exact (error_eq_timedOut_iff.mp told).1

/-- Timeouts are the calls that were answered with a refusal or stopped. Under the policy to let the
last preload win, every call is answered, and so every request passed on to the loader. Under the
policy to stop, no call is answered with a refusal, and one that was stopped leaves the coordinator
as it was, so that the next one waits for the same handle again. Each timeout names the request
whose handle was waited for. -/
theorem timeouts_of_calls (answers : c.loader.Answers) (fresh : s.preloads = .idle none)
    (unasked : s.world.history = []) (course : Course c.noted s calls t) :
    t.results.timeouts = s.results.timeouts + calls.countP (ranOut ·.2) ∧
    (c.policy = .lastWins → (∀ call ∈ calls, ∃ completed, call.2 = .ok completed) ∧
      taken calls = calls.filterMap (·.1.preload?)) ∧
    (c.policy = .abort → ∀ call ∈ calls, call.2 ≠ .ok false) ∧
    ∃ granted, Tracked calls granted t ∧
      ∀ call r u, Ends (c.noted.call call) t r u →
        (∀ fault, r = .error fault → ranOut r = true) ∧
        (ranOut r = true → ∃ handle p, granted.getLast? = some (p, handle) ∧
          RanOut c r t u handle p ∧ ∀ fault, r = .error fault → Stopped c t u handle) := by
  have sound := PreloadState.sound_of_idle fresh
  have counted := timeouts_eq_of_course answers sound course
  obtain ⟨granted, tracked⟩ := exists_tracked_of_course answers.grants fresh unasked course
  refine ⟨counted, fun lastWins => ?answered, fun abort => ?refused, granted, tracked, ?next⟩
  case answered =>
    have answered : ∀ call ∈ calls, ∃ completed, call.2 = .ok completed := by
      refine forall_of_course answers (fun called => ?_) sound course
      cases called with
      | settled waited => exact ⟨_, rfl⟩
      | issued waited answer => exact ⟨_, rfl⟩
      | stopped abort => cases lastWins.symm.trans abort
    exact ⟨answered, taken_eq answered⟩
  case refused =>
    have policy : c.noted.policy = .abort := abort
    refine forall_of_course answers (fun called equal => ?_) sound course
    cases called with
    | settled waited =>
      rw [waited.completed_of_abort policy] at equal
      cases equal
    | issued waited answer =>
      rw [waited.completed_of_abort policy] at equal
      cases equal
    | stopped => cases equal
  case next =>
    intro call r u ended
    refine ⟨fun fault equal => ?_, fun bound => ?_⟩
    · subst equal
      exact ranOut_of_error answers tracked.sound ended
    · obtain ⟨handle, p, ran⟩ := ranOut_of_call answers ended bound
      refine ⟨handle, p, tracked.last handle p ran.outstanding, ran, fun fault equal => ?_⟩
      subst equal
      exact stopped_of_call answers ran.outstanding ended

end Coordinator

/-! ## Recorded preloads -/

theorem Recording.loader_answers (modes : List Mode) : (loader modes).Answers where
  request target dataFile world := ⟨_, rfl⟩
  wait handle bound world := by
    unfold loader
    dsimp only
    cases world.handles[handle]? with
    | none => exact ⟨_, rfl⟩
    | some h => exact ⟨_, rfl⟩

open Run in
/-- The second of two preloads is stopped since the first is never done, and so is the wait at the
end, which is for the handle of the first again. -/
theorem Coordinator.timeouts_of_stopped_request :
    let message := "line 1: preload of a from a.hex did not complete within 50"
    ∃ (c : Coordinator Recording.World) (s t u : RunState (Noted Recording.World)) (handle : Nat),
      c.policy = .abort ∧
      Course c.noted s [(.request ⟨"a", "a.hex", some 1⟩, .ok true),
        (.request ⟨"b", "b.hex", some 2⟩, .error (.preloadTimeout message))] t ∧
      t.results.timeouts = 1 ∧ t.preloads = .outstanding handle ⟨"a", "a.hex", some 1⟩ ∧
      Ends c.noted.settle t (.error (.preloadTimeout message)) u ∧ u.preloads = t.preloads ∧
      u.world.history = t.world.history ++ [.completion handle (some false)] := by
  intro message
  let c : Coordinator Recording.World := ⟨Recording.loader [.never], .whole 50, .abort⟩
  let s : RunState (Noted Recording.World) := { world := ⟨{}, []⟩ }
  obtain ⟨t, u, course, settled⟩ : ∃ t u,
      Course c.noted s [(.request ⟨"a", "a.hex", some 1⟩, .ok true),
        (.request ⟨"b", "b.hex", some 2⟩, .error (.preloadTimeout message))] t ∧
      Ends (c.noted.call .settle) t (.error (.preloadTimeout message)) u := by
    have first := Course.call .start
      (show Ends (c.noted.call (.request ⟨"a", "a.hex", some 1⟩)) s (.ok true) _ from rfl)
    have course := first.call (show Ends (c.noted.call (.request ⟨"b", "b.hex", some 2⟩)) _
      (.error (.preloadTimeout message)) _ from rfl)
    exact ⟨_, _, course, rfl⟩
  obtain ⟨counted, -, -, granted, tracked, next⟩ :=
    timeouts_of_calls (Recording.loader_answers _) rfl rfl course
  obtain ⟨bound, ranOut⟩ := next _ _ u settled
  obtain ⟨handle, p, last, ran, stops⟩ := ranOut (bound _ rfl)
  have stopped := stops _ rfl
  obtain rfl : p = ⟨"a", "a.hex", some 1⟩ := by
    have named := congrArg List.getLast? tracked.taken
    rw [List.getLast?_map, last] at named
    exact Option.some.inj named
  exact ⟨c, s, t, u, handle, rfl, course, counted, ran.outstanding, settled, stopped.preloads,
    stopped.history⟩

end BusScript
