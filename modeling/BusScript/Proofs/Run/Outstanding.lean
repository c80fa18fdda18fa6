import BusScript.Proofs.Run.Timeouts

/-!
# The outstanding preload

What a coordinator knows of its preloads at any time, after any calls and whatever happens between
them. It writes the three parts of its state one by one, and they stay in step: something is in
progress exactly as long as a handle is kept (`sound_of_course`). The loader is only assumed to take
every preload on: a wait for one may report completion of a preload that is not done, run into its
bound, or fail. The last preload asked for is that of the last request that was answered, and what
is outstanding is this preload, under the handle that the loader granted for it. A call that is not
answered grants nothing and changes neither.
-/

namespace BusScript.Coordinator

open Run

variable {σ : Type} {c : Coordinator σ}

/-! ## The last preload -/

section

variable {s t : RunState σ}

/-- Taking note of a completed preload does not forget that it was the last one asked for. -/
theorem lastRequest_of_poll {r : Except RunFault Unit} (ended : Ends c.poll s r t) :
    t.preloads.lastRequest = s.preloads.lastRequest := by
  rcases eq_or_done_of_poll ended with rfl | ⟨handle, p, log, outstanding, done, rfl⟩
  · rfl
  · rw [outstanding]
    rfl

/-- A wait asks for no other preload. -/
theorem Waited.lastRequest_eq {r : Except RunFault Bool} (waited : Waited c s r t) :
    t.preloads.lastRequest = s.preloads.lastRequest := by
  cases waited with
  | done outstanding done =>
    rw [outstanding]
    rfl
  | answered outstanding undone answer =>
    rw [outstanding]
    rfl
  | _ => rfl

end

variable {s t : RunState (Noted σ)} {r : Except RunFault Bool}
  {calls : List (Call × Except RunFault Bool)} {granted : List (Preload × Nat)}

theorem Quiet.lastRequest_eq (quiet : Quiet c.noted s t) :
    t.preloads.lastRequest = s.preloads.lastRequest := by
  cases quiet with
  | poll ended => exact lastRequest_of_poll ended
  | phase ended =>
    obtain ⟨_, polled⟩ := exists_poll_of_phase ended
    exact lastRequest_of_poll polled
  | between world => rfl

/-- The last preload is that of the call, if it took one on, and otherwise the one before. -/
theorem lastRequest_of_call (grants : c.loader.Grants) {call : Call}
    (ended : Ends (c.noted.call call) s r t) : t.preloads.lastRequest =
      (r.toOption.bind fun _ => call.preload?).or s.preloads.lastRequest := by
  cases call with
  | settle =>
    have untaken : (r.toOption.bind fun _ => Call.settle.preload?) = none :=
      Option.bind_fun_none r.toOption
    rw [untaken]
    exact (waited_of_waitOutstanding ended).lastRequest_eq
  | request p =>
    cases requested_of_request ended with
    | issued waited answer => rfl
    | @failed completed m log reason waited answer =>
      obtain ⟨handle, granted⟩ := grants.noted p.target p.dataFile m.world
      cases granted.symm.trans answer
    | stopped waited => exact waited.lastRequest_eq

theorem lastRequest_of_course (grants : c.loader.Grants) (fresh : s.preloads = .idle none)
    (course : Course c.noted s calls t) :
    t.preloads.lastRequest = (taken calls).getLast? := by
  induction course with
  | start =>
    rw [fresh]
    rfl
  | quiet _ quiet ih => rw [quiet.lastRequest_eq, ih]
  | @call calls m t call r _ ended ih =>
    rw [lastRequest_of_call grants ended, ih, taken_concat]
    cases r.toOption.bind fun _ => call.preload? with
    | none => rw [Option.toList_none, List.append_nil, Option.none_or]
    | some p => rw [Option.toList_some, List.getLast?_concat, Option.some_or]

/-! ## The phase -/

theorem phase_eq_iff (preloads : PreloadState) :
    preloads.phase = "in_progress" ↔ preloads.inProgress = true := by
  have other : "idle" ≠ "in_progress" := by decide
  unfold PreloadState.phase
  cases preloads.inProgress with
  | false => exact ⟨fun named => absurd named other, nofun⟩
  | true => exact ⟨fun _ => rfl, fun _ => rfl⟩

/-- Reading the phase leaves the bench alone, and what was done before it is outstanding no more. -/
theorem exists_phase_apply (c : Coordinator σ) {s : RunState σ} (sound : s.preloads.Sound) :
    ∃ t, c.phase s = .ok t.preloads.phase t ∧ t.world = s.world ∧
      ∀ handle, t.preloads.completion = some handle ↔
        s.preloads.completion = some handle ∧ c.loader.done handle s.world = false := by
  rcases sound.eq_idle_or_outstanding with ⟨last, idle⟩ | ⟨tracked, p, outstanding⟩
  · refine ⟨s, bind_apply (poll_idle (by rw [idle]; rfl)), rfl, fun handle => ?_⟩
    rw [idle]
    exact ⟨nofun, And.left⟩
  · cases done : c.loader.done tracked s.world with
    | false =>
      refine ⟨s, bind_apply (poll_undone outstanding done), rfl, fun handle => ?_⟩
      rw [outstanding]
      refine ⟨fun same => ⟨same, ?_⟩, And.left⟩
      cases same
      exact done
    | true =>
      obtain ⟨log, polled⟩ := exists_poll_done outstanding done
      refine ⟨_, bind_apply polled, rfl, fun handle => ⟨nofun, ?_⟩⟩
      rw [outstanding]
      rintro ⟨same, undone⟩
      cases same
      cases done.symm.trans undone

/-! ## The invariant -/

/-- Something is in progress exactly if a handle is kept, and then the preload asked for last is
that of the last answered request, which was granted this handle. The loader saw the preloads of the
answered requests and no others. A handle that is kept once the phase was read is not done. -/
theorem outstanding_of_course (grants : c.loader.Grants) (fresh : s.preloads = .idle none)
    (unasked : s.world.history = []) (course : Course c.noted s calls t) :
    t.preloads.inProgress = t.preloads.completion.isSome ∧
    t.preloads.lastRequest = (taken calls).getLast? ∧
    (∃ granted : List (Preload × Nat), granted.map (·.1) = taken calls ∧
      t.world.history.filterMap Asked.load? =
        granted.map (fun (p, handle) => (p.target, p.dataFile, some handle)) ∧
      ∀ handle, t.preloads.completion = some handle →
        ∃ p, t.preloads.lastRequest = some p ∧ granted.getLast? = some (p, handle)) ∧
    ∃ u, c.noted.phase t = .ok u.preloads.phase u ∧ u.world = t.world ∧
      (u.preloads.phase = "in_progress" ↔ u.preloads.completion.isSome) ∧
      u.preloads.inProgress = u.preloads.completion.isSome ∧
      ∀ handle, u.preloads.completion = some handle ↔
        t.preloads.completion = some handle ∧ c.loader.done handle u.world.world = false := by
  obtain ⟨granted, tracked⟩ := exists_tracked_of_course grants fresh unasked course
  have sound := sound_of_course course (PreloadState.sound_of_idle fresh)
  have last := lastRequest_of_course grants fresh course
  have handles : ∀ handle, t.preloads.completion = some handle →
      ∃ p, t.preloads.lastRequest = some p ∧ granted.getLast? = some (p, handle) := by
    intro handle kept
    obtain ⟨p, outstanding⟩ := sound.exists_of_completion kept
    exact ⟨p, by rw [outstanding]; rfl, tracked.last handle p outstanding⟩
  obtain ⟨u, read, world, undone⟩ := c.noted.exists_phase_apply sound
  have later : u.preloads.Sound :=
    (Quiet.phase (r := .ok _) read).sound sound
  refine ⟨sound.tracked, last, ⟨granted, tracked.taken, tracked.asked, handles⟩, u, read, world, ?_,
    later.tracked, fun handle => ?_⟩
  · rw [phase_eq_iff, later.tracked]
  · rw [world]
    exact undone handle

/-- A preload whose handle reports completion without being done, another that is never done and is
let go on, and a wait for it at the end: the other one is outstanding. -/
theorem outstanding_after_lagging_preload :
    ∃ (c : Coordinator Recording.World) (s t : RunState (Noted Recording.World)),
      Course c.noted s [(.request ⟨"a", "a.hex", some 1⟩, .ok true),
        (.request ⟨"b", "b.hex", some 2⟩, .ok true), (.settle, .ok false)] t ∧
      t.preloads.inProgress = true ∧ t.preloads.completion = some 1 ∧
      t.preloads.lastRequest = some ⟨"b", "b.hex", some 2⟩ ∧
      t.world.history.filterMap Asked.load? =
        [("a", "a.hex", some 0), ("b", "b.hex", some 1)] ∧
      ∃ u, c.noted.phase t = .ok "in_progress" u ∧ u.preloads.completion = some 1 := by
  let c : Coordinator Recording.World := ⟨Recording.loader [.lags, .never], .whole 50, .lastWins⟩
  let s : RunState (Noted Recording.World) := { world := ⟨{}, []⟩ }
  obtain ⟨t, course, tracked, asked, undone⟩ : ∃ t,
      Course c.noted s [(.request ⟨"a", "a.hex", some 1⟩, .ok true),
        (.request ⟨"b", "b.hex", some 2⟩, .ok true), (.settle, .ok false)] t ∧
      t.preloads.completion = some 1 ∧
      t.world.history.filterMap Asked.load? = [("a", "a.hex", some 0), ("b", "b.hex", some 1)] ∧
      c.loader.done 1 t.world.world = false := by
    have course := Course.call .start
      (show Ends (c.noted.call (.request ⟨"a", "a.hex", some 1⟩)) s (.ok true) _ from rfl)
    have course := course.call
      (show Ends (c.noted.call (.request ⟨"b", "b.hex", some 2⟩)) _ (.ok true) _ from rfl)
    have course := course.call (show Ends (c.noted.call .settle) _ (.ok false) _ from rfl)
    exact ⟨_, course, rfl, rfl, rfl⟩
  obtain ⟨flag, last, -, u, read, world, readFlag, -, handles⟩ :=
    outstanding_of_course (Recording.loader_answers _).grants rfl rfl course
  have kept : u.preloads.completion = some 1 := by
    refine (handles 1).mpr ⟨tracked, ?_⟩
    rw [world]
    exact undone
  have phase : u.preloads.phase = "in_progress" := by
    rw [readFlag, kept]
    rfl
  refine ⟨c, s, t, course, ?_, tracked, last, asked, u, phase ▸ read, kept⟩
  rw [flag, tracked]
  rfl

end BusScript.Coordinator
