import BusScript.Bench.Recording
import BusScript.Proofs.Bench.Noted
import BusScript.Proofs.Run.Preloads
import Mathlib.Logic.Relation

/-!
# One preload at a time

A coordinator knows of one handle only, while preloads get done at any moment and a wait may report
completion of a handle that does not count as done. What it has lost sight of is bounded all the
same: a handle is let go of unresolved only by a wait that ran into its bound, and each such wait is
a counted timeout. That is the invariant `Serial`. It is preserved by every move, and what can be
seen from outside follows from it.
-/

namespace BusScript

variable {σ : Type}

/-! ## Handles -/

/-- What a preload was answered with, if it was one that was asked for. -/
def Asked.preload? : Asked → Option (Option Nat)
  | .preload _ _ handle => some handle
  | _ => none

namespace Noted

/-- The answers to the preloads asked for, in their order. -/
def requested (state : Noted σ) : List (Option Nat) :=
  state.history.filterMap Asked.preload?

/-- The handles issued so far, in their order. -/
def issued (state : Noted σ) : List Nat :=
  state.requested.filterMap id

theorem requested_of_history {state later : Noted σ} {asked : Asked}
    (history : later.history = state.history ++ [asked]) :
    later.requested = state.requested ++ asked.preload?.toList := by
  unfold requested
  rw [history, List.filterMap_append]
  cases answer : asked.preload? <;> simp [answer]

theorem issued_of_requested {state later : Noted σ} {answer : Option Nat}
    (requested : later.requested = state.requested ++ [answer]) :
    later.issued = state.issued ++ answer.toList := by
  unfold issued
  rw [requested, List.filterMap_append]
  cases answer <;> rfl

end Noted

namespace Loader

variable (loader : Loader σ)

/-- A handle that is done stays done, whatever the loader is asked for. -/
structure Lasting : Prop where
  request : ∀ target dataFile world handle, loader.done handle world = true →
    loader.done handle (loader.request target dataFile world).state = true
  wait : ∀ awaited bound world handle, loader.done handle world = true →
    loader.done handle (loader.wait awaited bound world).state = true

/-- The handle is done, or a wait for it reported completion. -/
def Resolved (state : Noted σ) (handle : Nat) : Prop :=
  loader.done handle state.world = true ∨ .completion handle (some true) ∈ state.history

instance (state : Noted σ) : DecidablePred (loader.Resolved state) :=
  fun handle => inferInstanceAs
    (Decidable (loader.done handle state.world = true ∨
      .completion handle (some true) ∈ state.history))

/-- How many of the handles are not resolved. -/
def unresolved (state : Noted σ) (handles : List Nat) : Nat :=
  handles.countP (¬ loader.Resolved state ·)

/-- The bench has gone on, and no handle that was done is so no more. -/
structure Later (state later : Noted σ) : Prop where
  history : state.history <+: later.history
  done : ∀ handle, loader.done handle state.world = true → loader.done handle later.world = true

variable {loader} {state later : Noted σ} {handles : List Nat}

theorem Later.refl : loader.Later state state :=
  ⟨List.prefix_rfl, fun _ done => done⟩

theorem Later.resolved (gone : loader.Later state later) {handle : Nat}
    (resolved : loader.Resolved state handle) : loader.Resolved later handle := by
  rcases resolved with done | reported
  · exact .inl (gone.done handle done)
  · exact .inr (gone.history.subset reported)

theorem Later.unresolved_le (gone : loader.Later state later) (handles : List Nat) :
    loader.unresolved later handles ≤ loader.unresolved state handles := by
  refine List.countP_mono_left fun handle _ unresolved => ?_
  simp only [decide_eq_true_eq] at unresolved ⊢
  exact fun resolved => unresolved (gone.resolved resolved)

theorem unresolved_concat (state : Noted σ) (handles : List Nat) (last : Nat) :
    loader.unresolved state (handles ++ [last]) =
      loader.unresolved state handles + if loader.Resolved state last then 0 else 1 := by
  unfold unresolved
  rw [List.countP_append, List.countP_singleton]
  by_cases resolved : loader.Resolved state last <;> simp [resolved]

theorem unresolved_le_dropLast (loader : Loader σ) (state : Noted σ) (handles : List Nat) :
    loader.unresolved state handles ≤ loader.unresolved state handles.dropLast + 1 := by
  rcases handles.eq_nil_or_concat with rfl | ⟨earlier, last, rfl⟩
  · exact Nat.zero_le _
  · rw [List.concat_eq_append, unresolved_concat, List.dropLast_concat]
    split <;> omega

theorem unresolved_le_dropLast_of_resolved
    (resolved : ∀ last, handles.getLast? = some last → loader.Resolved state last) :
    loader.unresolved state handles ≤ loader.unresolved state handles.dropLast := by
  rcases handles.eq_nil_or_concat with rfl | ⟨earlier, last, rfl⟩
  · exact Nat.le_refl _
  · rw [List.concat_eq_append] at resolved ⊢
    have last := resolved last List.getLast?_concat
    rw [unresolved_concat, List.dropLast_concat, if_pos last]
    exact Nat.le_refl _

theorem resolved_of_unresolved_eq_zero (none : loader.unresolved state handles = 0) {handle : Nat}
    (issued : handle ∈ handles) : loader.Resolved state handle := by
  have all := List.countP_eq_zero.mp none handle issued
  simpa only [decide_eq_true_eq, Decidable.not_not] using all

end Loader

/-! ## Moves -/

namespace Coordinator

open Run

/-- The coordinator of a noted bench. -/
def noted (c : Coordinator σ) : Coordinator (Noted σ) :=
  { c with loader := c.loader.noted }

/-- What can happen to a coordinator: a call of it, whatever comes of the call, or preloads that get
done in between. -/
inductive Move (c : Coordinator (Noted σ)) : RunState (Noted σ) → RunState (Noted σ) → Prop
  | request {p : Preload} {s t : RunState (Noted σ)} {r : Except RunFault Bool} :
      Ends (c.request p) s r t → Move c s t
  | settle {s t : RunState (Noted σ)} {r : Except RunFault Bool} :
      Ends c.settle s r t → Move c s t
  | poll {s t : RunState (Noted σ)} {r : Except RunFault Unit} :
      Ends c.poll s r t → Move c s t
  | phase {s t : RunState (Noted σ)} {r : Except RunFault String} :
      Ends c.phase s r t → Move c s t
  | between {s : RunState (Noted σ)} {world : σ} :
      (∀ handle, c.loader.done handle s.world = true →
        c.loader.done handle { s.world with world } = true) →
      Move c s { s with world := { s.world with world } }

variable {c : Coordinator σ} {before : Nat} {s t m : RunState (Noted σ)}

/-! ## The invariant -/

/-- What holds of a coordinator after any moves. `before` is the number of timeouts at their
start. -/
structure Serial (c : Coordinator σ) (before : Nat) (s : RunState (Noted σ)) : Prop where
  sound : s.preloads.Sound
  tracked : ∀ handle, s.preloads.completion = some handle → s.world.issued.getLast? = some handle
  settled : s.preloads.completion = none →
    ∀ last, s.world.issued.getLast? = some last → c.loader.Resolved s.world last
  counted : before + c.loader.unresolved s.world s.world.issued.dropLast ≤ s.results.timeouts
  stopped : c.policy = .abort → c.loader.unresolved s.world s.world.issued.dropLast = 0

theorem serial_fresh (fresh : s.preloads = .idle none) (unasked : s.world.history = []) :
    Serial c s.results.timeouts s := by
  have none : s.world.issued = [] := by
    unfold Noted.issued Noted.requested
    rw [unasked]
    rfl
  constructor
  · exact PreloadState.sound_of_idle fresh
  · intro handle outstanding
    rw [fresh] at outstanding
    cases outstanding
  · intro _ last issued
    rw [none] at issued
    cases issued
  · rw [none]
    exact Nat.le_refl _
  · intro _
    rw [none]
    rfl

/-- The invariant outlives whatever issues no handle, and tracks none newly. A handle that it tracks
no more has to be resolved. -/
theorem Serial.later (serial : Serial c before s) (gone : c.loader.Later s.world t.world)
    (issued : t.world.issued = s.world.issued)
    (timeouts : s.results.timeouts ≤ t.results.timeouts) (sound : t.preloads.Sound)
    (preloads : t.preloads.completion = s.preloads.completion ∨ (t.preloads.completion = none ∧
      ∀ handle, s.preloads.completion = some handle → c.loader.Resolved t.world handle)) :
    Serial c before t := by
  have fewer : c.loader.unresolved t.world t.world.issued.dropLast ≤
      c.loader.unresolved s.world s.world.issued.dropLast := by
    rw [issued]
    exact gone.unresolved_le _
  have counted := serial.counted
  constructor
  · exact sound
  · intro handle outstanding
    rcases preloads with same | ⟨idle, -⟩
    · rw [issued]
      exact serial.tracked handle (same ▸ outstanding)
    · rw [idle] at outstanding
      cases outstanding
  · intro idle last latest
    rw [issued] at latest
    cases outstanding : s.preloads.completion with
    | none => exact gone.resolved (serial.settled outstanding last latest)
    | some handle =>
      rcases preloads with same | ⟨-, resolved⟩
      · rw [idle, outstanding] at same
        cases same
      · have equal := serial.tracked handle outstanding
        rw [latest] at equal
        cases equal
        exact resolved last outstanding
  · omega
  · intro abort
    have := serial.stopped abort
    omega

/-! ## Waits -/

section

variable {r : Except RunFault Bool}

theorem later_wait (lasting : c.loader.Lasting) (handle : Nat) (bound : TimeBound)
    (state : Noted σ) : c.loader.Later state (c.noted.loader.wait handle bound state).state :=
  ⟨List.prefix_append _ _, lasting.wait handle bound state.world⟩

theorem requested_wait (handle : Nat) (bound : TimeBound) (state : Noted σ) :
    (c.noted.loader.wait handle bound state).state.requested = state.requested :=
  (Noted.requested_of_history rfl).trans (List.append_nil _)

theorem history_wait {handle : Nat} {bound : TimeBound} {state : Noted σ} {completed : Bool}
    (answer : (c.noted.loader.wait handle bound state).result = .ok completed) :
    (c.noted.loader.wait handle bound state).state.history =
      state.history ++ [.completion handle (some completed)] := by
  have answer : (c.loader.wait handle bound state.world).result = .ok completed := answer
  show state.history ++
      [.completion handle (c.loader.wait handle bound state.world).result.toOption] = _
  rw [answer]
  rfl

theorem resolved_wait {handle : Nat} {bound : TimeBound} {state : Noted σ}
    (answer : (c.noted.loader.wait handle bound state).result = .ok true) :
    c.loader.Resolved (c.noted.loader.wait handle bound state).state handle := by
  refine .inr ?_
  rw [history_wait answer]
  exact List.mem_append_right _ (List.mem_singleton_self _)

/-- A wait asks for no preload. -/
theorem Waited.later (lasting : c.loader.Lasting) (waited : Waited c.noted s r t) :
    c.loader.Later s.world t.world ∧ t.world.requested = s.world.requested := by
  cases waited with
  | idle idle => exact ⟨.refl, rfl⟩
  | done outstanding done => exact ⟨.refl, rfl⟩
  | broken unsound => exact ⟨.refl, rfl⟩
  | _ => exact ⟨later_wait lasting _ _ _, requested_wait _ _ _⟩

theorem Serial.waited (lasting : c.loader.Lasting) (serial : Serial c before s)
    (waited : Waited c.noted s r t) : Serial c before t := by
  obtain ⟨gone, requested⟩ := waited.later lasting
  have issued : t.world.issued = s.world.issued := congrArg (·.filterMap id) requested
  have sound := waited.sound serial.sound
  cases waited with
  | idle resting => exact serial
  | done outstanding done =>
    refine serial.later gone issued (Nat.le_refl _) sound (.inr ⟨rfl, fun found tracked => ?_⟩)
    rw [outstanding] at tracked
    cases tracked
    exact .inl done
  | answered outstanding undone answer =>
    refine serial.later gone issued (Nat.le_refl _) sound (.inr ⟨rfl, fun found tracked => ?_⟩)
    rw [outstanding] at tracked
    cases tracked
    exact resolved_wait answer
  | timedOut outstanding undone answer =>
    exact serial.later gone issued (Nat.le_succ _) sound (.inl rfl)
  | failed outstanding undone answer =>
    exact serial.later gone issued (Nat.le_refl _) sound (.inl rfl)
  | broken unsound => exact absurd serial.sound unsound

/-- The last handle is resolved, or a wait for it has just run into its bound, which is one more
timeout. -/
def LetGo (c : Coordinator σ) (s : RunState (Noted σ)) (world : Noted σ) (timeouts last : Nat) :
    Prop :=
  c.loader.Resolved world last ∨
    world.history = s.world.history ++ [.completion last (some false)] ∧
      timeouts = s.results.timeouts + 1

/-- After a wait that goes on, the last handle is let go of. -/
theorem Serial.letGo (serial : Serial c before s) {completed : Bool}
    (waited : Waited c.noted s (.ok completed) m) {last : Nat}
    (latest : s.world.issued.getLast? = some last) :
    LetGo c s m.world m.results.timeouts last := by
  have equal : ∀ {handle p}, s.preloads = .outstanding handle p → last = handle := by
    intro handle p outstanding
    have tracked := serial.tracked handle (by rw [outstanding]; rfl)
    exact Option.some.inj (latest.symm.trans tracked)
  generalize result : (.ok completed : Except RunFault Bool) = r at waited
  cases waited with
  | idle resting =>
    exact .inl (serial.settled (serial.sound.completion_eq_none resting) last latest)
  | done outstanding done =>
    obtain rfl := equal outstanding
    exact .inl (.inl done)
  | answered outstanding undone answer =>
    obtain rfl := equal outstanding
    exact .inl (resolved_wait answer)
  | timedOut outstanding undone answer =>
    obtain rfl := equal outstanding
    exact .inr ⟨history_wait answer, rfl⟩
  | failed outstanding undone answer => cases result
  | broken unsound => cases result

/-- Under the policy to stop, no wait that goes on has counted a timeout. -/
theorem Waited.results_of_abort {completed : Bool} (abort : c.policy = .abort)
    (waited : Waited c.noted s (.ok completed) m) : m.results = s.results := by
  have policy : c.noted.policy = .abort := abort
  rw [waited.counted.1, waited.completed_of_abort policy]
  rfl

/-- After a wait that goes on, only handles of counted timeouts are unresolved. -/
theorem Serial.ready (lasting : c.loader.Lasting) (serial : Serial c before s) {completed : Bool}
    (waited : Waited c.noted s (.ok completed) m) :
    before + c.loader.unresolved m.world m.world.issued ≤ m.results.timeouts ∧
      (c.policy = .abort → c.loader.unresolved m.world m.world.issued = 0) := by
  obtain ⟨gone, requested⟩ := waited.later lasting
  have issued : m.world.issued = s.world.issued := congrArg (·.filterMap id) requested
  have counted := serial.counted
  have stopped := serial.stopped
  have fewer := gone.unresolved_le s.world.issued.dropLast
  rw [issued]
  by_cases resolved : ∀ last, s.world.issued.getLast? = some last → c.loader.Resolved m.world last
  · have all := Loader.unresolved_le_dropLast_of_resolved resolved
    have timeouts : s.results.timeouts ≤ m.results.timeouts := by
      rw [waited.counted.1]
      split
      · exact Nat.le_refl _
      · exact Nat.le_succ _
    refine ⟨by omega, fun abort => ?_⟩
    have := stopped abort
    omega
  · simp only [Classical.not_forall] at resolved
    obtain ⟨last, latest, unresolved⟩ := resolved
    have most := c.loader.unresolved_le_dropLast m.world s.world.issued
    rcases serial.letGo waited latest with resolved | ⟨-, timeouts⟩
    · exact absurd resolved unresolved
    · refine ⟨by omega, fun abort => ?_⟩
      rw [waited.results_of_abort abort] at timeouts
      omega

end

/-! ## Requests and moves -/

theorem later_request (lasting : c.loader.Lasting) (target dataFile : String) (state : Noted σ) :
    c.loader.Later state (c.noted.loader.request target dataFile state).state :=
  ⟨List.prefix_append _ _, lasting.request target dataFile state.world⟩

theorem requested_request (target dataFile : String) (state : Noted σ) :
    (c.noted.loader.request target dataFile state).state.requested = state.requested ++
      [(c.noted.loader.request target dataFile state).result.toOption] := by
  have history : (c.noted.loader.request target dataFile state).state.history = state.history ++
      [.preload target dataFile (c.noted.loader.request target dataFile state).result.toOption] :=
    rfl
  exact Noted.requested_of_history history

theorem issued_request {target dataFile : String} {state : Noted σ}
    {answer : Except CallFault Nat}
    (answered : (c.noted.loader.request target dataFile state).result = answer) :
    (c.noted.loader.request target dataFile state).state.issued =
      state.issued ++ answer.toOption.toList := by
  subst answered
  exact Noted.issued_of_requested (requested_request target dataFile state)

theorem Serial.requested (lasting : c.loader.Lasting) (serial : Serial c before s) {p : Preload}
    {r : Except RunFault Bool} (requested : Requested c.noted p s r t) : Serial c before t := by
  cases requested with
  | stopped waited => exact serial.waited lasting waited
  | @failed completed m log reason waited answer =>
    have issued := issued_request answer
    have serial := serial.waited lasting waited
    exact serial.later (later_request lasting _ _ _) (issued.trans (List.append_nil _))
      (Nat.le_refl _) (serial.sound.withLast p) (.inl rfl)
  | @issued completed m handle log waited answer =>
    -- The new handle is the last, and the earlier ones are those that the wait left behind.
    obtain ⟨counted, stopped⟩ := serial.ready lasting waited
    have gone := later_request lasting p.target p.dataFile m.world
    have fewer := gone.unresolved_le m.world.issued
    have issued := issued_request answer
    have latest := congrArg List.getLast? issued
    have earlier := congrArg List.dropLast issued
    rw [Except.toOption, Option.toList_some, List.getLast?_concat] at latest
    rw [Except.toOption, Option.toList_some, List.dropLast_concat] at earlier
    constructor
    · exact PreloadState.sound_of_outstanding rfl
    · intro found tracked
      cases tracked
      exact latest
    · intro idle
      cases idle
    · rw [earlier]
      dsimp only
      omega
    · intro abort
      have := stopped abort
      rw [earlier]
      dsimp only
      omega

theorem Serial.polled (serial : Serial c before s) {r : Except RunFault Unit}
    (ended : Ends c.noted.poll s r t) : Serial c before t ∧ t.world = s.world := by
  have sound := sound_of_poll ended serial.sound
  rcases eq_or_done_of_poll ended with rfl | ⟨handle, p, log, outstanding, done, rfl⟩
  · exact ⟨serial, rfl⟩
  · refine ⟨serial.later .refl rfl (Nat.le_refl _) sound (.inr ⟨rfl, fun found tracked => ?_⟩),
      rfl⟩
    rw [outstanding] at tracked
    cases tracked
    exact .inl done

theorem Serial.phased (serial : Serial c before s) {r : Except RunFault String}
    (ended : Ends c.noted.phase s r t) : Serial c before t ∧ t.world = s.world := by
  obtain ⟨_, polled⟩ := exists_poll_of_phase ended
  exact serial.polled polled

/-- Every move preserves the invariant. -/
theorem Serial.move (lasting : c.loader.Lasting) (serial : Serial c before s)
    (moved : Move c.noted s t) : Serial c before t := by
  cases moved with
  | request ended => exact serial.requested lasting (requested_of_request ended)
  | settle ended => exact serial.waited lasting (waited_of_waitOutstanding ended)
  | poll ended => exact (serial.polled ended).1
  | phase ended => exact (serial.phased ended).1
  | between done =>
    exact serial.later ⟨List.prefix_rfl, done⟩ rfl (Nat.le_refl _) serial.sound (.inl rfl)

theorem Serial.moves (lasting : c.loader.Lasting) (serial : Serial c before s)
    (moved : Relation.ReflTransGen c.noted.Move s t) : Serial c before t := by
  induction moved with
  | refl => exact serial
  | tail _ moved serial => exact serial.move lasting moved

/-- What may have asked for a preload on the way between two states asked for one only, and has done
no more before than to wait for the handle that it kept. Then the last handle was let go of, and the
timeout it was let go of with, if there was one, is counted. -/
def InTurn (c : Coordinator σ) (s t : RunState (Noted σ)) : Prop :=
  t.world.requested = s.world.requested ∨
    ∃ (target dataFile : String) (asked : Noted σ),
      (asked = s.world ∨ ∃ handle, s.preloads.completion = some handle ∧
        asked = (c.noted.loader.wait handle c.timeout s.world).state) ∧
      asked.requested = s.world.requested ∧
      (∀ last, s.world.issued.getLast? = some last → LetGo c s asked t.results.timeouts last) ∧
      t.world = (c.noted.loader.request target dataFile asked).state

/-- Before it asks for a preload a request waits for the handle that it kept, or for none. -/
theorem Waited.world_eq {r : Except RunFault Bool} (waited : Waited c.noted s r m) :
    m.world = s.world ∨ ∃ handle, s.preloads.completion = some handle ∧
      m.world = (c.noted.loader.wait handle c.timeout s.world).state := by
  have kept {handle : Nat} {p : Preload} (outstanding : s.preloads = .outstanding handle p) :
      s.preloads.completion = some handle := by
    rw [outstanding]
    rfl
  cases waited with
  | idle resting => exact .inl rfl
  | done outstanding done => exact .inl rfl
  | answered outstanding undone answer => exact .inr ⟨_, kept outstanding, rfl⟩
  | timedOut outstanding undone answer => exact .inr ⟨_, kept outstanding, rfl⟩
  | failed outstanding undone answer => exact .inr ⟨_, kept outstanding, rfl⟩
  | broken unsound => exact .inl rfl

theorem Serial.inTurn (lasting : c.loader.Lasting) (serial : Serial c before s)
    (moved : Move c.noted s t) : InTurn c s t := by
  cases moved with
  | @request p _ _ _ ended =>
    cases requested_of_request ended with
    | stopped waited => exact .inl (waited.later lasting).2
    | failed waited answer =>
      exact .inr ⟨p.target, p.dataFile, _, waited.world_eq, (waited.later lasting).2,
        fun last latest => serial.letGo waited latest, rfl⟩
    | issued waited answer =>
      exact .inr ⟨p.target, p.dataFile, _, waited.world_eq, (waited.later lasting).2,
        fun last latest => serial.letGo waited latest, rfl⟩
  | settle ended => exact .inl ((waited_of_waitOutstanding ended).later lasting).2
  | poll ended => exact .inl (congrArg Noted.requested (serial.polled ended).2)
  | phase ended => exact .inl (congrArg Noted.requested (serial.phased ended).2)
  | between done => exact .inl rfl

/-! ## Preloads in turn -/

/-- After any moves, all but one of the unresolved handles are handles of counted timeouts, and
under the policy to stop there are no others. A preload is asked for only once the last handle is
let go of. When the coordinator has settled, every unresolved handle is one of a counted timeout. -/
theorem unresolved_le_timeouts (lasting : c.loader.Lasting) (fresh : s.preloads = .idle none)
    (unasked : s.world.history = []) (moved : Relation.ReflTransGen c.noted.Move s t) :
    (c.policy = .abort → c.loader.unresolved t.world t.world.issued ≤ 1) ∧
      s.results.timeouts + c.loader.unresolved t.world t.world.issued ≤
        1 + t.results.timeouts ∧
      (∀ u, c.noted.Move t u → InTurn c t u) ∧
      ∀ u, c.noted.settle t = .ok true u →
        s.results.timeouts + c.loader.unresolved u.world u.world.issued ≤ u.results.timeouts ∧
          (u.results.timeouts = s.results.timeouts →
            ∀ handle ∈ u.world.issued, c.loader.Resolved u.world handle) := by
  have serial := (serial_fresh fresh unasked).moves lasting moved
  have counted := serial.counted
  have most := c.loader.unresolved_le_dropLast t.world t.world.issued
  refine ⟨fun abort => ?_, by omega, fun u moved => serial.inTurn lasting moved, ?_⟩
  · have := serial.stopped abort
    omega
  · intro u settled
    have waited := waited_of_waitOutstanding (r := .ok true) settled
    obtain ⟨counted, -⟩ := serial.ready lasting waited
    refine ⟨counted, fun equal handle issued => ?_⟩
    exact Loader.resolved_of_unresolved_eq_zero (by omega) issued

end Coordinator

/-! ## Recorded preloads -/

namespace Recording

theorem Handle.done_wait (bound : TimeBound) {handle : Handle} (done : handle.done = true) :
    (handle.wait bound).2.done = true := by
  unfold wait
  cases handle.mode with
  | fires => rfl
  | _ => exact done

/-- A recorded handle that is done stays done. -/
theorem loader_lasting (modes : List Mode) : (loader modes).Lasting where
  request target dataFile world handle done := by
    unfold loader at done ⊢
    dsimp only at done ⊢
    cases found : world.handles[handle]? with
    | none =>
      rw [found] at done
      cases done
    | some h =>
      rw [found] at done
      rw [List.getElem?_append_left (List.getElem?_eq_some_iff.mp found).1, found]
      exact done
  wait awaited bound world handle done := by
    unfold loader at done ⊢
    dsimp only at done ⊢
    cases known : world.handles[awaited]? with
    | none => exact done
    | some _ =>
      cases found : world.handles[handle]? with
      | none =>
        rw [found] at done
        cases done
      | some h =>
        rw [found] at done
        unfold World.changeHandle
        dsimp only
        rw [List.getElem?_modify, found]
        show (if awaited = handle then (h.wait bound).2 else h).done = true
        split
        · exact Handle.done_wait bound done
        · exact done

end Recording

/-- The bound is reached: of two preloads that never get done, the second is asked for after a
timeout, and both are unresolved then. -/
theorem Coordinator.unresolved_of_two_preloads :
    ∃ (c : Coordinator Recording.World) (s t : RunState (Noted Recording.World)),
      c.policy = .lastWins ∧ Relation.ReflTransGen c.noted.Move s t ∧ t.world.issued = [0, 1] ∧
        c.loader.unresolved t.world t.world.issued = 2 ∧ t.results.timeouts = 1 ∧
        s.results.timeouts + c.loader.unresolved t.world t.world.issued ≤
          1 + t.results.timeouts := by
  let c : Coordinator Recording.World := ⟨Recording.loader [.never], .whole 50, .lastWins⟩
  let s : RunState (Noted Recording.World) := { world := ⟨{}, []⟩ }
  have first : c.noted.Move s _ := .request (p := ⟨"a", "a.hex", some 1⟩) (r := .ok true) rfl
  have moved := (Relation.ReflTransGen.single first).tail
    (.request (p := ⟨"b", "b.hex", some 2⟩) (r := .ok false) rfl)
  exact ⟨c, s, _, rfl, moved, rfl, by decide, rfl,
    (unresolved_le_timeouts (Recording.loader_lasting _) rfl rfl moved).2.1⟩

end BusScript
