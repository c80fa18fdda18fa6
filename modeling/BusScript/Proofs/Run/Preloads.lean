import BusScript.Proofs.Run.Outcome
import BusScript.Run.Preload

/-!
# Waiting for preloads

All that a wait for the outstanding preload can come to is said once, in `Waited`, and all that a
request can come to in `Requested`; what else is known of them is read off these. A coordinator
writes the three parts of its state one by one. That they agree (`PreloadState.Sound`) outlives
whatever it is called for, and only where they do not can a part be missing. A wait leaves the trace
alone and counts a timeout exactly if it tells of one. Of the bench it asks no more than the wait of
the loader, and from a sound state it fails for no reason of its own but the policy to stop.
-/

namespace BusScript

/-! ## The state of preloads -/

namespace PreloadState

/-- None is outstanding. -/
def idle (last : Option Preload) : PreloadState where
  lastRequest := last

/-- One is outstanding, under the handle that was issued for it; and the last one asked for. -/
def outstanding (handle : Nat) (last : Preload) : PreloadState where
  inProgress := true
  completion := some handle
  lastRequest := some last

/-- One is in progress exactly as long as its handle is kept, and then one was asked for. -/
structure Sound (state : PreloadState) : Prop where
  tracked : state.inProgress = state.completion.isSome
  asked : state.inProgress → state.lastRequest.isSome

theorem sound_of_idle {state : PreloadState} {last : Option Preload} (resting : state = idle last) :
    state.Sound := by
  rw [resting]
  exact ⟨rfl, nofun⟩

theorem sound_of_outstanding {state : PreloadState} {handle : Nat} {last : Preload}
    (running : state = outstanding handle last) : state.Sound := by
  rw [running]
  exact ⟨rfl, fun _ => rfl⟩

/-- A sound state is one of two. -/
theorem Sound.eq_idle_or_outstanding {state : PreloadState} (sound : state.Sound) :
    (∃ last, state = idle last) ∨ ∃ handle last, state = outstanding handle last := by
  obtain ⟨inProgress, completion, last⟩ := state
  obtain ⟨tracked, asked⟩ := sound
  cases completion with
  | none =>
    cases tracked
    exact .inl ⟨last, rfl⟩
  | some handle =>
    cases tracked
    obtain ⟨last, rfl⟩ := Option.isSome_iff_exists.mp (asked rfl)
    exact .inr ⟨handle, last, rfl⟩

theorem Sound.completion_eq_none {state : PreloadState} (sound : state.Sound)
    (resting : state.inProgress = false) : state.completion = none := by
  rw [← Option.not_isSome_iff_eq_none, ← sound.tracked, resting]
  exact Bool.false_ne_true

theorem Sound.exists_of_completion {state : PreloadState} (sound : state.Sound) {handle : Nat}
    (kept : state.completion = some handle) : ∃ last, state = outstanding handle last := by
  rcases sound.eq_idle_or_outstanding with ⟨last, rfl⟩ | ⟨found, last, rfl⟩
  · cases kept
  · cases kept
    exact ⟨last, rfl⟩

theorem Sound.withLast {state : PreloadState} (sound : state.Sound) (p : Preload) :
    (state.withLast p).Sound :=
  ⟨sound.tracked, fun _ => rfl⟩

theorem not_sound_of_broken {state : PreloadState} (running : state.inProgress = true)
    (broken : state.completion = none ∨ state.lastRequest = none) : ¬state.Sound := by
  rintro ⟨tracked, asked⟩
  rcases broken with missing | missing
  · rw [running, missing] at tracked
    cases tracked
  · have asked := asked running
    rw [missing] at asked
    cases asked

/-- None is in progress, or one is and all of it is known, or a part of it is missing. -/
theorem resting_or_outstanding_or_broken (state : PreloadState) :
    state.inProgress = false ∨ (∃ handle last, state = .outstanding handle last) ∨
      state.inProgress = true ∧ (state.completion = none ∨ state.lastRequest = none) := by
  obtain ⟨running, completion, last⟩ := state
  cases running with
  | false => exact .inl rfl
  | true =>
    cases completion with
    | none => exact .inr (.inr ⟨rfl, .inl rfl⟩)
    | some handle =>
      cases last with
      | none => exact .inr (.inr ⟨rfl, .inr rfl⟩)
      | some last => exact .inr (.inl ⟨handle, last, rfl⟩)

end PreloadState

namespace Coordinator

open Run

variable {σ : Type} {c : Coordinator σ}

/-! ## Taking note -/

theorem poll_idle {s : RunState σ} (idle : s.preloads.inProgress = false) :
    c.poll s = .ok () s := by
  obtain ⟨world, results, ⟨inProgress, completion, last⟩, traces, log⟩ := s
  cases idle
  rfl

theorem poll_undone {s : RunState σ} {handle : Nat} {p : Preload}
    (outstanding : s.preloads = .outstanding handle p)
    (undone : c.loader.done handle s.world = false) : c.poll s = .ok () s := by
  obtain ⟨world, results, _, traces, log⟩ := s
  cases outstanding
  unfold poll
  rw [bind_apply (get_apply _)]
  dsimp only [PreloadState.outstanding] at undone ⊢
  rw [undone]
  rfl

theorem exists_poll_done {s : RunState σ} {handle : Nat} {p : Preload}
    (outstanding : s.preloads = .outstanding handle p)
    (done : c.loader.done handle s.world = true) :
    ∃ log, c.poll s = .ok () { s with preloads := .idle (some p), log } := by
  obtain ⟨world, results, _, traces, log⟩ := s
  cases outstanding
  unfold poll
  rw [bind_apply (get_apply _)]
  dsimp only [PreloadState.outstanding] at done ⊢
  rw [done]
  exact ⟨_, rfl⟩

/-- Taking note changes nothing where a part of the preload in progress is missing, though it may
fail. -/
theorem poll_of_broken {s : RunState σ} (running : s.preloads.inProgress = true)
    (broken : s.preloads.completion = none ∨ s.preloads.lastRequest = none) :
    Ends c.poll s (.ok ()) s ∨ Ends c.poll s (.error (.missing "target_path")) s := by
  obtain ⟨world, results, ⟨inProgress, completion, last⟩, traces, log⟩ := s
  cases running
  cases completion with
  | none => exact .inl rfl
  | some handle =>
    obtain rfl : last = none := broken.resolve_left (Option.some_ne_none handle)
    unfold poll
    simp only [Ends, bind_apply (get_apply _)]
    cases c.loader.done handle world with
    | false => exact .inl rfl
    | true => exact .inr rfl

/-- Taking note changes nothing, or it takes note of the outstanding preload. -/
theorem eq_or_done_of_poll {s t : RunState σ} {r : Except RunFault Unit}
    (ended : Ends c.poll s r t) :
    t = s ∨ ∃ handle p log, s.preloads = .outstanding handle p ∧
      c.loader.done handle s.world = true ∧ t = { s with preloads := .idle (some p), log } := by
  rcases s.preloads.resting_or_outstanding_or_broken with
    resting | ⟨handle, p, outstanding⟩ | ⟨running, broken⟩
  · have idle : Ends c.poll s (.ok ()) s := poll_idle resting
    exact .inl (ended.unique idle).2
  · cases done : c.loader.done handle s.world with
    | false =>
      have undone : Ends c.poll s (.ok ()) s := poll_undone outstanding done
      exact .inl (ended.unique undone).2
    | true =>
      obtain ⟨log, polled⟩ := exists_poll_done outstanding done
      have noted : Ends c.poll s (.ok ()) _ := polled
      exact .inr ⟨handle, p, log, outstanding, done, (ended.unique noted).2⟩
  · rcases poll_of_broken (c := c) running broken with polled | polled
    · exact .inl (ended.unique polled).2
    · exact .inl (ended.unique polled).2

theorem sound_of_poll {s t : RunState σ} {r : Except RunFault Unit} (ended : Ends c.poll s r t)
    (sound : s.preloads.Sound) : t.preloads.Sound := by
  rcases eq_or_done_of_poll ended with rfl | ⟨handle, p, log, -, -, rfl⟩
  · exact sound
  · exact PreloadState.sound_of_idle rfl

/-- The phase is asked for by taking note. -/
theorem exists_poll_of_phase {s t : RunState σ} {r : Except RunFault String}
    (ended : Ends c.phase s r t) : ∃ q, Ends c.poll s q t := by
  rcases ends_bind_iff.mp ended with ⟨_, m, polled, ended⟩ | ⟨_, -, polled⟩
  · cases r with
    | ok name =>
      cases ended
      exact ⟨_, polled⟩
    | error fault => cases ended
  · exact ⟨_, polled⟩

/-! ## Waits -/

/-- The end of a wait that ran into its bound. -/
def timedOut (c : Coordinator σ) (p : Preload) : Except RunFault Bool :=
  match c.policy with
  | .abort => .error (.preloadTimeout (c.timeoutMessage p))
  | .lastWins => .ok false

theorem ok_eq_timedOut_iff {p : Preload} {completed : Bool} :
    .ok completed = c.timedOut p ↔ completed = false ∧ c.policy = .lastWins := by
  unfold timedOut
  cases c.policy <;> simp

theorem error_eq_timedOut_iff {p : Preload} {fault : RunFault} :
    .error fault = c.timedOut p ↔
      fault = .preloadTimeout (c.timeoutMessage p) ∧ c.policy = .abort := by
  unfold timedOut
  cases c.policy <;> simp

/-- All that a wait for the outstanding preload can come to. -/
inductive Waited (c : Coordinator σ) (s : RunState σ) :
    Except RunFault Bool → RunState σ → Prop
  /-- No preload is in progress. -/
  | idle : s.preloads.inProgress = false → Waited c s (.ok true) s
  /-- The outstanding preload is done, and nothing is waited for. -/
  | done {handle : Nat} {p : Preload} {log : Array LogRecord} :
      s.preloads = .outstanding handle p → c.loader.done handle s.world = true →
      Waited c s (.ok true) { s with preloads := .idle (some p), log }
  /-- The loader reports completion. -/
  | answered {handle : Nat} {p : Preload} {log : Array LogRecord} :
      s.preloads = .outstanding handle p → c.loader.done handle s.world = false →
      (c.loader.wait handle c.timeout s.world).result = .ok true →
      Waited c s (.ok true) { s with
        world := (c.loader.wait handle c.timeout s.world).state
        preloads := .idle (some p)
        log }
  /-- The wait ran into its bound. -/
  | timedOut {handle : Nat} {p : Preload} {log : Array LogRecord} :
      s.preloads = .outstanding handle p → c.loader.done handle s.world = false →
      (c.loader.wait handle c.timeout s.world).result = .ok false →
      Waited c s (c.timedOut p) { s with
        world := (c.loader.wait handle c.timeout s.world).state
        results := s.results.recordTimeout
        log }
  /-- The loader failed. -/
  | failed {handle : Nat} {p : Preload} {log : Array LogRecord} {reason : CallFault} :
      s.preloads = .outstanding handle p → c.loader.done handle s.world = false →
      (c.loader.wait handle c.timeout s.world).result = .error reason →
      Waited c s (.error (.call reason)) { s with
        world := (c.loader.wait handle c.timeout s.world).state
        log }
  /-- A preload is in progress of which the handle or the request is missing. -/
  | broken {name : String} {log : Array LogRecord} :
      ¬s.preloads.Sound → Waited c s (.error (.missing name)) { s with log }

/-- The rest of a wait that the loader has answered. -/
def answered (c : Coordinator σ) (p : Preload) (completed : Bool) : Run σ Bool := do
  if completed then
    c.poll
    release
    return true
  count Results.recordTimeout
  say .error .preload s!"Timeout: {c.timeoutMessage p}"
  match c.policy with
  | .abort => throw (.preloadTimeout (c.timeoutMessage p))
  | .lastWins => return false

theorem exists_log_of_answered_true {handle : Nat} {p : Preload} {s t : RunState σ}
    {r : Except RunFault Bool} (ended : Ends (c.answered p true) s r t)
    (outstanding : s.preloads = .outstanding handle p) :
    r = .ok true ∧ ∃ log, t = { s with preloads := .idle (some p), log } := by
  cases done : c.loader.done handle s.world with
  | true =>
    obtain ⟨log, polled⟩ := exists_poll_done outstanding done
    have known : Ends (c.answered p true) s (.ok true)
        { s with preloads := .idle (some p), log } := bind_apply polled
    obtain ⟨rfl, rfl⟩ := ended.unique known
    exact ⟨rfl, log, rfl⟩
  | false =>
    have known : Ends (c.answered p true) s (.ok true)
        { s with preloads := .idle (some p) } := by
      refine (bind_apply (poll_undone outstanding done)).trans ?_
      obtain ⟨world, results, _, traces, log⟩ := s
      cases outstanding
      rfl
    obtain ⟨rfl, rfl⟩ := ended.unique known
    exact ⟨rfl, s.log, rfl⟩

/-- What a wait that ran into its bound is told with. -/
def timeoutRecord (c : Coordinator σ) (p : Preload) : LogRecord :=
  ⟨.error, .preload, s!"Timeout: {c.timeoutMessage p}"⟩

theorem answered_false_ends (p : Preload) (s : RunState σ) :
    Ends (c.answered p false) s (c.timedOut p)
      { s with results := s.results.recordTimeout, log := s.log.push (c.timeoutRecord p) } := by
  unfold answered timedOut
  cases c.policy with
  | abort => rfl
  | lastWins => rfl

/-- The wait for a preload that is not done is that of the loader. -/
theorem exists_waitOutstanding_undone (reason : String) {s : RunState σ} {handle : Nat}
    {p : Preload} (outstanding : s.preloads = .outstanding handle p)
    (undone : c.loader.done handle s.world = false) :
    ∃ told, c.waitOutstanding reason s =
      (ask (c.loader.wait handle c.timeout) >>= c.answered p)
        { s with log := s.log.push told } := by
  have polled := poll_undone outstanding undone
  obtain ⟨world, results, _, traces, log⟩ := s
  cases outstanding
  unfold waitOutstanding
  rw [bind_apply polled]
  exact ⟨_, rfl⟩

theorem waitOutstanding_of_broken (reason : String) {s : RunState σ}
    (running : s.preloads.inProgress = true)
    (broken : s.preloads.completion = none ∨ s.preloads.lastRequest = none) :
    ∃ name log, Ends (c.waitOutstanding reason) s (.error (.missing name)) { s with log } := by
  unfold waitOutstanding
  rcases poll_of_broken (c := c) running broken with polled | failed
  · simp only [Ends, bind_apply polled]
    obtain ⟨world, results, ⟨inProgress, completion, last⟩, traces, log⟩ := s
    cases running
    cases last with
    | none => exact ⟨_, _, rfl⟩
    | some last =>
      obtain rfl : completion = none := broken.resolve_right (Option.some_ne_none last)
      exact ⟨_, _, rfl⟩
  · exact ⟨"target_path", s.log, bind_error_iff.mpr (.inl failed)⟩

theorem waited_of_waitOutstanding {reason : String} {s t : RunState σ}
    {r : Except RunFault Bool} (ended : Ends (c.waitOutstanding reason) s r t) :
    Waited c s r t := by
  rcases s.preloads.resting_or_outstanding_or_broken with
    resting | ⟨handle, p, outstanding⟩ | ⟨running, broken⟩
  · have idle : Ends (c.waitOutstanding reason) s (.ok true) s := by
      unfold waitOutstanding
      rw [Ends, bind_apply (poll_idle resting), bind_apply (get_apply s), resting]
      rfl
    obtain ⟨rfl, rfl⟩ := ended.unique idle
    exact .idle resting
  · cases done : c.loader.done handle s.world with
    | true =>
      obtain ⟨log, polled⟩ := exists_poll_done outstanding done
      have noted : Ends (c.waitOutstanding reason) s (.ok true)
          { s with preloads := .idle (some p), log } := by
        unfold waitOutstanding
        rw [Ends, bind_apply polled]
        rfl
      obtain ⟨rfl, rfl⟩ := ended.unique noted
      exact .done outstanding done
    | false =>
      obtain ⟨told, begun⟩ := exists_waitOutstanding_undone reason outstanding done
      rcases ends_bind_iff.mp ((ends_congr begun).mp ended) with
        ⟨completed, m, asked, ended⟩ | ⟨fault, rfl, asked⟩
      · obtain ⟨answer, rfl⟩ := ask_ok_iff.mp asked
        cases completed with
        | true =>
          obtain ⟨rfl, _, rfl⟩ := exists_log_of_answered_true ended outstanding
          exact .answered outstanding done answer
        | false =>
          obtain ⟨rfl, rfl⟩ := ended.unique (answered_false_ends p _)
          exact .timedOut outstanding done answer
      · obtain ⟨reason, answer, rfl, rfl⟩ := ask_error_iff.mp asked
        exact .failed outstanding done answer
  · obtain ⟨name, log, failed⟩ := waitOutstanding_of_broken (c := c) reason running broken
    obtain ⟨rfl, rfl⟩ := ended.unique failed
    exact .broken (PreloadState.not_sound_of_broken running broken)

/-! ## Requests -/

theorem change_apply (f : PreloadState → PreloadState) (s : RunState σ) :
    change f s = .ok () { s with preloads := f s.preloads } :=
  rfl

/-- All that a request can come to: it asks the loader after its wait, unless that wait ends it. -/
inductive Requested (c : Coordinator σ) (p : Preload) (s : RunState σ) :
    Except RunFault Bool → RunState σ → Prop
  /-- The loader took the preload on. -/
  | issued {completed : Bool} {m : RunState σ} {handle : Nat} {log : Array LogRecord} :
      Waited c s (.ok completed) m →
      (c.loader.request p.target p.dataFile m.world).result = .ok handle →
      Requested c p s (.ok completed) { m with
        world := (c.loader.request p.target p.dataFile m.world).state
        preloads := .outstanding handle p
        log }
  /-- The loader failed. -/
  | failed {completed : Bool} {m : RunState σ} {log : Array LogRecord} {reason : CallFault} :
      Waited c s (.ok completed) m →
      (c.loader.request p.target p.dataFile m.world).result = .error reason →
      Requested c p s (.error (.call reason)) { m with
        world := (c.loader.request p.target p.dataFile m.world).state
        preloads := m.preloads.withLast p
        log }
  /-- The wait before it ended it. -/
  | stopped {fault : RunFault} {t : RunState σ} :
      Waited c s (.error fault) t → Requested c p s (.error fault) t

theorem requested_of_request {p : Preload} {s t : RunState σ} {r : Except RunFault Bool}
    (ended : Ends (c.request p) s r t) : Requested c p s r t := by
  rcases ends_bind_iff.mp ended with ⟨completed, m, waited, ended⟩ | ⟨fault, rfl, waited⟩
  · have waited := waited_of_waitOutstanding waited
    have ended := (ends_congr (bind_apply (change_apply _ m))).mp ended
    rcases ends_bind_iff.mp ended with ⟨handle, n, asked, ended⟩ | ⟨fault, rfl, asked⟩
    · obtain ⟨answer, rfl⟩ := ask_ok_iff.mp asked
      cases r with
      | ok completed =>
        cases ended
        exact Requested.issued (m := m) waited answer
      | error fault => cases ended
    · obtain ⟨reason, answer, rfl, rfl⟩ := ask_error_iff.mp asked
      exact Requested.failed (m := m) waited answer
  · exact .stopped (waited_of_waitOutstanding waited)

/-! ## Soundness -/

theorem Waited.sound {s t : RunState σ} {r : Except RunFault Bool} (waited : Waited c s r t)
    (sound : s.preloads.Sound) : t.preloads.Sound := by
  cases waited with
  | idle resting => exact sound
  | done outstanding done => exact PreloadState.sound_of_idle rfl
  | answered outstanding undone answer => exact PreloadState.sound_of_idle rfl
  | timedOut outstanding undone answer => exact sound
  | failed outstanding undone answer => exact sound
  | broken broken => exact absurd sound broken

theorem Requested.sound {p : Preload} {s t : RunState σ} {r : Except RunFault Bool}
    (requested : Requested c p s r t) (sound : s.preloads.Sound) : t.preloads.Sound := by
  cases requested with
  | issued waited answer => exact PreloadState.sound_of_outstanding rfl
  | failed waited answer => exact (waited.sound sound).withLast p
  | stopped waited => exact waited.sound sound

/-! ## Counters -/

/-- A wait that tells of a timeout has counted it, and no other wait counts anything. -/
theorem Waited.counted {completed : Bool} {s t : RunState σ}
    (waited : Waited c s (.ok completed) t) :
    t.results = (if completed then s.results else s.results.recordTimeout) ∧
      t.traces = s.traces := by
  generalize result : (.ok completed : Except RunFault Bool) = r at waited
  cases waited with
  | timedOut outstanding undone answer =>
    obtain ⟨rfl, -⟩ := ok_eq_timedOut_iff.mp result
    exact ⟨rfl, rfl⟩
  | failed outstanding undone answer => cases result
  | broken broken => cases result
  | _ => cases result; exact ⟨rfl, rfl⟩

/-- Whatever a wait comes to, it counts no more than a timeout and leaves the trace alone. -/
theorem Waited.uncounted_or_timeout {s t : RunState σ} {r : Except RunFault Bool}
    (waited : Waited c s r t) :
    (t.results = s.results ∨ t.results = s.results.recordTimeout) ∧ t.traces = s.traces := by
  cases waited with
  | timedOut outstanding undone answer => exact ⟨.inr rfl, rfl⟩
  | _ => exact ⟨.inl rfl, rfl⟩

theorem Requested.uncounted_or_timeout {p : Preload} {s t : RunState σ}
    {r : Except RunFault Bool} (requested : Requested c p s r t) :
    (t.results = s.results ∨ t.results = s.results.recordTimeout) ∧ t.traces = s.traces := by
  cases requested with
  | issued waited answer => exact waited.uncounted_or_timeout
  | failed waited answer => exact waited.uncounted_or_timeout
  | stopped waited => exact waited.uncounted_or_timeout

/-- Under the policy to stop, a wait that goes on has not run into its bound. -/
theorem Waited.completed_of_abort (abort : c.policy = .abort) {completed : Bool}
    (waited : Waited c s (.ok completed) t) : completed = true := by
  generalize result : (.ok completed : Except RunFault Bool) = r at waited
  cases waited with
  | timedOut outstanding undone answer =>
    cases abort.symm.trans (ok_eq_timedOut_iff.mp result).2
  | failed outstanding undone answer => cases result
  | broken broken => cases result
  | _ =>
    cases result
    rfl

/-- A request tells of the wait before it. -/
theorem counted_of_request {p : Preload} {completed : Bool} {s t : RunState σ}
    (ended : c.request p s = .ok completed t) :
    t.results = (if completed then s.results else s.results.recordTimeout) ∧
      t.traces = s.traces := by
  cases requested_of_request (r := .ok completed) ended with
  | issued waited answer => exact waited.counted

/-! ## The bench -/

section

variable {R : σ → σ → Prop}

/-- The bench sees no more of a wait than the wait of the loader. -/
theorem Waited.onWorld [Std.Refl R] {s t : RunState σ} {r : Except RunFault Bool}
    (wait : ∀ handle world, R world (c.loader.wait handle c.timeout world).state)
    (waited : Waited c s r t) : OnWorld R s t := by
  cases waited with
  | idle resting => exact Std.Refl.refl s.world
  | done outstanding done => exact Std.Refl.refl s.world
  | answered outstanding undone answer => exact wait _ s.world
  | timedOut outstanding undone answer => exact wait _ s.world
  | failed outstanding undone answer => exact wait _ s.world
  | broken unsound => exact Std.Refl.refl s.world

theorem keeps_waitOutstanding [Std.Refl R] (reason : String)
    (wait : ∀ handle world, R world (c.loader.wait handle c.timeout world).state) :
    Keeps (OnWorld R) (c.waitOutstanding reason) :=
  keeps_iff.mpr fun _ _ _ ended => (waited_of_waitOutstanding ended).onWorld wait

/-- Of a request the bench sees the wait before it, and the request of the loader. -/
theorem keeps_request [Std.Refl R] [IsTrans σ R] (p : Preload)
    (wait : ∀ handle world, R world (c.loader.wait handle c.timeout world).state)
    (request : ∀ world, R world (c.loader.request p.target p.dataFile world).state) :
    Keeps (OnWorld R) (c.request p) := by
  refine keeps_iff.mpr fun s r t ended => ?_
  cases requested_of_request ended with
  | issued waited answer => exact trans_of R (waited.onWorld wait) (request _)
  | failed waited answer => exact trans_of R (waited.onWorld wait) (request _)
  | stopped waited => exact waited.onWorld wait

end

/-! ## Faults -/

section

variable {I : PreloadState → Prop} {F : RunFault → Prop}
variable (wait : ∀ handle world reason,
  (c.loader.wait handle c.timeout world).result = .error reason → F (.call reason))
variable (abort : c.policy = .abort → ∀ message, F (.preloadTimeout message))
variable (broken : ∀ state, I state → ¬state.Sound → ∀ name, F (.missing name))

include wait abort broken

/-- The faults of a wait are those of the loader, that of the policy to stop, and what is missing in
a state that is not sound. -/
theorem Waited.allowed {s t : RunState σ} {r : Except RunFault Bool} (waited : Waited c s r t)
    (holds : I s.preloads) : Allowed F r := by
  cases waited with
  | failed outstanding undone answer => exact wait _ _ _ answer
  | @timedOut handle p log outstanding undone answer =>
    unfold Coordinator.timedOut
    cases policy : c.policy with
    | abort => exact abort policy (c.timeoutMessage p)
    | lastWins => trivial
  | broken unsound => exact broken _ holds unsound _
  | _ => trivial

theorem failsWith_waitOutstanding (reason : String)
    (kept : ∀ {s r t}, Waited c s r t → I s.preloads → I t.preloads) :
    FailsWith I F (c.waitOutstanding reason) := by
  intro s r t holds ended
  have waited := waited_of_waitOutstanding ended
  exact ⟨kept waited holds, waited.allowed wait abort broken holds⟩

theorem failsWith_request (p : Preload)
    (request : ∀ world reason,
      (c.loader.request p.target p.dataFile world).result = .error reason → F (.call reason))
    (kept : ∀ {s r t}, Requested c p s r t → I s.preloads → I t.preloads) :
    FailsWith I F (c.request p) := by
  intro s r t holds ended
  have requested := requested_of_request ended
  refine ⟨kept requested holds, ?_⟩
  cases requested with
  | issued waited answer => trivial
  | failed waited answer => exact request _ _ answer
  | stopped waited => exact waited.allowed wait abort broken holds

end

/-- No request ends in a script error. -/
theorem failsWith_request_unscripted (c : Coordinator σ) (p : Preload) :
    FailsWith (fun _ => True) RunFault.Unscripted (c.request p) :=
  failsWith_request (fun _ _ _ _ _ => nofun) (fun _ _ _ => nofun) (fun _ _ _ _ _ => nofun) p
    (fun _ _ _ _ => nofun) fun _ _ => trivial

end Coordinator

end BusScript
