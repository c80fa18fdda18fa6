import Mathlib.Order.Defs.Unbundled
import BusScript.Run.State

/-!
# Outcomes of parts of a run

A part of a run ends in a state, with a value or with a fault. The lemmas here open a sequence of
parts at either outcome. Two properties hold of a sequence as soon as they hold of its parts: that
the end is related to the start whatever the outcome (`Keeps`), and that only some faults are
possible as long as something holds of the preloads (`FailsWith`).
-/

namespace BusScript

/-- The fault is no script error. -/
def RunFault.Unscripted (fault : RunFault) : Prop :=
  ∀ error, fault ≠ .script error

namespace Run

variable {σ α β : Type}

/-! ## Sequences -/

theorem bind_ok_iff {x : Run σ α} {f : α → Run σ β} {s t : RunState σ} {b : β} :
    (x >>= f) s = .ok b t ↔ ∃ a m, x s = .ok a m ∧ f a m = .ok b t := by
  show EStateM.bind x f s = .ok b t ↔ _
  unfold EStateM.bind
  cases x s with
  | ok a m =>
    constructor
    · intro ended
      exact ⟨a, m, rfl, ended⟩
    · rintro ⟨_, _, equal, ended⟩
      cases equal
      exact ended
  | error fault m => simp

theorem bind_error_iff {x : Run σ α} {f : α → Run σ β} {s t : RunState σ} {fault : RunFault} :
    (x >>= f) s = .error fault t ↔
      x s = .error fault t ∨ ∃ a m, x s = .ok a m ∧ f a m = .error fault t := by
  show EStateM.bind x f s = .error fault t ↔ _
  unfold EStateM.bind
  cases x s with
  | ok a m =>
    constructor
    · intro ended
      exact .inr ⟨a, m, rfl, ended⟩
    · rintro (equal | ⟨_, _, equal, ended⟩)
      · cases equal
      · cases equal
        exact ended
  | error found m => simp

theorem pure_ok_iff {s t : RunState σ} {a b : α} :
    (pure a : Run σ α) s = .ok b t ↔ a = b ∧ s = t := by
  show EStateM.Result.ok a s = .ok b t ↔ _
  rw [EStateM.Result.ok.injEq]

theorem pure_ne_error {s t : RunState σ} {a : α} {fault : RunFault} :
    (pure a : Run σ α) s ≠ .error fault t := by
  intro equal
  cases equal

theorem throw_ne_ok {s t : RunState σ} {a : α} {fault : RunFault} :
    (throw fault : Run σ α) s ≠ .ok a t := by
  intro equal
  cases equal

theorem throw_error_iff {s t : RunState σ} {fault found : RunFault} :
    (throw fault : Run σ α) s = .error found t ↔ fault = found ∧ s = t := by
  show EStateM.Result.error fault s = .error found t ↔ _
  rw [EStateM.Result.error.injEq]

/-! ## Ends -/

/-- A part of a run ends in a state, with a value or with a fault. -/
def Ends (x : Run σ α) (s : RunState σ) : Except RunFault α → RunState σ → Prop
  | .ok a, t => x s = .ok a t
  | .error fault, t => x s = .error fault t

/-- A part of a run has one end. -/
theorem Ends.unique {x : Run σ α} {s t u : RunState σ} {r q : Except RunFault α}
    (first : Ends x s r t) (other : Ends x s q u) : r = q ∧ t = u := by
  cases r <;> cases q <;> cases first.symm.trans other <;> exact ⟨rfl, rfl⟩

theorem ends_congr {x y : Run σ α} {s u t : RunState σ} {r : Except RunFault α}
    (same : x s = y u) : Ends x s r t ↔ Ends y u r t := by
  cases r <;> rw [Ends, Ends, same]

theorem ends_bind_iff {x : Run σ α} {f : α → Run σ β} {s t : RunState σ} {r : Except RunFault β} :
    Ends (x >>= f) s r t ↔
      (∃ a m, Ends x s (.ok a) m ∧ Ends (f a) m r t) ∨
        ∃ fault, r = .error fault ∧ Ends x s (.error fault) t := by
  cases r with
  | ok b =>
    simp only [Ends, bind_ok_iff, reduceCtorEq, false_and, exists_false, or_false]
  | error fault =>
    simp only [Ends, bind_error_iff, Except.error.injEq, exists_eq_left']
    exact or_comm

theorem bind_apply {x : Run σ α} {f : α → Run σ β} {s m : RunState σ} {a : α}
    (first : x s = .ok a m) : (x >>= f) s = f a m := by
  show EStateM.bind x f s = f a m
  unfold EStateM.bind
  rw [first]

/-! ## Single steps -/

theorem get_apply (s : RunState σ) : (get : Run σ (RunState σ)) s = .ok s s := rfl

theorem say_apply (level : LogLevel) (logger : Logger) (message : String) (s : RunState σ) :
    say level logger message s = .ok () { s with log := s.log.push ⟨level, logger, message⟩ } := rfl

/-- A record is added to the trace; the log changes too. -/
theorem exists_emit_apply (record : TraceRecord) (s : RunState σ) :
    ∃ log, emit record s = .ok () { s with traces := s.traces.push record, log } :=
  ⟨_, rfl⟩

/-- A verdict is entered into the counters; a failure changes the log too. -/
theorem exists_enter_apply (verdict : Verdict) (s : RunState σ) :
    ∃ log, enter verdict s = .ok () { s with results := s.results.record verdict, log } := by
  cases verdict with
  | pass => exact ⟨_, rfl⟩
  | fail failure => exact ⟨_, rfl⟩

theorem exists_log_of_emit {record : TraceRecord} {s t : RunState σ} {u : Unit}
    (ended : emit record s = .ok u t) :
    ∃ log, t = { s with traces := s.traces.push record, log } := by
  obtain ⟨log, equal⟩ := exists_emit_apply record s
  rw [equal] at ended
  cases ended
  exact ⟨log, rfl⟩

theorem exists_log_of_enter {verdict : Verdict} {s t : RunState σ} {u : Unit}
    (ended : enter verdict s = .ok u t) :
    ∃ log, t = { s with results := s.results.record verdict, log } := by
  obtain ⟨log, equal⟩ := exists_enter_apply verdict s
  rw [equal] at ended
  cases ended
  exact ⟨log, rfl⟩

theorem emit_ne_error {record : TraceRecord} {s t : RunState σ} {fault : RunFault} :
    emit record s ≠ .error fault t := by
  obtain ⟨log, equal⟩ := exists_emit_apply record s
  rw [equal]
  intro ended
  cases ended

theorem enter_ne_error {verdict : Verdict} {s t : RunState σ} {fault : RunFault} :
    enter verdict s ≠ .error fault t := by
  obtain ⟨log, equal⟩ := exists_enter_apply verdict s
  rw [equal]
  intro ended
  cases ended

theorem ask_ok_iff {effect : Effect σ α} {s t : RunState σ} {a : α} :
    ask effect s = .ok a t ↔
      (effect s.world).result = .ok a ∧
        t = { s with
          world := (effect s.world).state
          log := s.log ++ (effect s.world).logs.toArray } := by
  unfold ask
  dsimp only
  cases (effect s.world).result with
  | ok answer => simp [eq_comm]
  | error fault => simp

theorem ask_map_ok_iff {effect : Effect σ α} {f : α → β} {s t : RunState σ} {b : β} :
    (ask effect >>= fun a => pure (f a)) s = .ok b t ↔
      ∃ a, (effect s.world).result = .ok a ∧ b = f a ∧
        t = { s with
          world := (effect s.world).state
          log := s.log ++ (effect s.world).logs.toArray } := by
  rw [bind_ok_iff]
  constructor
  · rintro ⟨a, m, asked, ended⟩
    obtain ⟨done, rfl⟩ := ask_ok_iff.mp asked
    obtain ⟨rfl, rfl⟩ := pure_ok_iff.mp ended
    exact ⟨a, done, rfl, rfl⟩
  · rintro ⟨a, done, rfl, rfl⟩
    exact ⟨a, _, ask_ok_iff.mpr ⟨done, rfl⟩, rfl⟩

theorem ask_error_iff {effect : Effect σ α} {s t : RunState σ} {fault : RunFault} :
    ask effect s = .error fault t ↔
      ∃ reason, (effect s.world).result = .error reason ∧ fault = .call reason ∧
        t = { s with
          world := (effect s.world).state
          log := s.log ++ (effect s.world).logs.toArray } := by
  unfold ask
  dsimp only
  cases (effect s.world).result with
  | ok answer => simp
  | error reason => simp [eq_comm]

/-! ## Relations of start and end -/

/-- Whatever comes of it, a part of a run ends in a state that is related to its start. -/
def Keeps (R : RunState σ → RunState σ → Prop) (x : Run σ α) : Prop :=
  ∀ s, (∀ a t, x s = .ok a t → R s t) ∧ ∀ fault t, x s = .error fault t → R s t

section

variable {R : RunState σ → RunState σ → Prop}

theorem keeps_iff {x : Run σ α} : Keeps R x ↔ ∀ s r t, Ends x s r t → R s t := by
  constructor
  · intro keeps s r t ended
    cases r with
    | ok a => exact (keeps s).1 a t ended
    | error fault => exact (keeps s).2 fault t ended
  · intro keeps s
    exact ⟨fun a t ended => keeps s (.ok a) t ended,
      fun fault t ended => keeps s (.error fault) t ended⟩

theorem Keeps.mono {S : RunState σ → RunState σ → Prop} {x : Run σ α} (keeps : Keeps S x)
    (weaker : ∀ {s t}, S s t → R s t) : Keeps R x :=
  fun s => ⟨fun a t ended => weaker ((keeps s).1 a t ended),
    fun fault t ended => weaker ((keeps s).2 fault t ended)⟩

/-- What follows a part may rely on what that part gives. -/
theorem Keeps.bind_of [IsTrans _ R] {x : Run σ α} {f : α → Run σ β} {Q : α → Prop}
    (first : Keeps R x) (given : ∀ s a t, x s = .ok a t → Q a)
    (later : ∀ a, Q a → Keeps R (f a)) : Keeps R (x >>= f) := by
  intro s
  constructor
  · intro b t ended
    obtain ⟨a, m, middle, ended⟩ := bind_ok_iff.mp ended
    exact trans_of R ((first s).1 a m middle) ((later a (given s a m middle) m).1 b t ended)
  · intro fault t ended
    rcases bind_error_iff.mp ended with ended | ⟨a, m, middle, ended⟩
    · exact (first s).2 fault t ended
    · exact trans_of R ((first s).1 a m middle)
        ((later a (given s a m middle) m).2 fault t ended)

theorem Keeps.bind [IsTrans _ R] {x : Run σ α} {f : α → Run σ β} (first : Keeps R x)
    (later : ∀ a, Keeps R (f a)) : Keeps R (x >>= f) :=
  first.bind_of (Q := fun _ => True) (fun _ _ _ _ => trivial) fun a _ => later a

theorem keeps_pure [Std.Refl R] {a : α} : Keeps R (pure a) := by
  intro s
  constructor
  · intro b t ended
    obtain ⟨-, rfl⟩ := pure_ok_iff.mp ended
    exact Std.Refl.refl s
  · intro fault t ended
    exact absurd ended pure_ne_error

theorem keeps_throw [Std.Refl R] {fault : RunFault} : Keeps R (throw fault : Run σ α) := by
  intro s
  constructor
  · intro a t ended
    exact absurd ended throw_ne_ok
  · intro found t ended
    obtain ⟨-, rfl⟩ := throw_error_iff.mp ended
    exact Std.Refl.refl s

theorem keeps_get [Std.Refl R] : Keeps R (get : Run σ (RunState σ)) := by
  intro s
  constructor
  · intro a t ended
    cases ended
    exact Std.Refl.refl s
  · intro fault t ended
    cases ended

theorem keeps_modify {change : RunState σ → RunState σ} (related : ∀ s, R s (change s)) :
    Keeps R (modify change : Run σ Unit) := by
  intro s
  constructor
  · intro a t ended
    cases ended
    exact related s
  · intro fault t ended
    cases ended

theorem keeps_ask {effect : Effect σ α}
    (related : ∀ s log, R s { s with world := (effect s.world).state, log }) :
    Keeps R (ask effect) := by
  intro s
  constructor
  · intro a t ended
    obtain ⟨-, rfl⟩ := ask_ok_iff.mp ended
    exact related s _
  · intro fault t ended
    obtain ⟨reason, -, -, rfl⟩ := ask_error_iff.mp ended
    exact related s _

end

/-! ## Counters, trace and bench -/

/-- Neither the counters nor the trace change. -/
def Uncounted (s t : RunState σ) : Prop :=
  t.results = s.results ∧ t.traces = s.traces

instance : Std.Refl (@Uncounted σ) where
  refl _ := ⟨rfl, rfl⟩

instance : IsTrans _ (@Uncounted σ) where
  trans _ _ _ first later := ⟨later.1.trans first.1, later.2.trans first.2⟩

/-- What the bench is asked for does not count. -/
theorem keeps_ask_uncounted {effect : Effect σ α} : Keeps Uncounted (ask effect) :=
  keeps_ask fun _ _ => ⟨rfl, rfl⟩

/-- The states of the bench are related. -/
def OnWorld (R : σ → σ → Prop) (s t : RunState σ) : Prop :=
  R s.world t.world

section

variable {R : σ → σ → Prop}

instance [Std.Refl R] : Std.Refl (OnWorld R) where
  refl s := Std.Refl.refl s.world

instance [IsTrans σ R] : IsTrans _ (OnWorld R) where
  trans _ _ _ first later := trans_of R first later

theorem keeps_ask_onWorld {effect : Effect σ α}
    (related : ∀ world, R world (effect world).state) : Keeps (OnWorld R) (ask effect) :=
  keeps_ask fun s _ => related s.world

theorem keeps_enter_onWorld [Std.Refl R] {verdict : Verdict} :
    Keeps (OnWorld R) (enter verdict) := by
  intro s
  constructor
  · intro a t ended
    obtain ⟨_, rfl⟩ := exists_log_of_enter ended
    exact Std.Refl.refl s.world
  · intro fault t ended
    exact absurd ended enter_ne_error

theorem keeps_emit_onWorld [Std.Refl R] {record : TraceRecord} :
    Keeps (OnWorld R) (emit record) := by
  intro s
  constructor
  · intro a t ended
    obtain ⟨_, rfl⟩ := exists_log_of_emit ended
    exact Std.Refl.refl s.world
  · intro fault t ended
    exact absurd ended emit_ne_error

end

/-! ## Possible faults -/

/-- An end is with a value, or with a fault of a kind. -/
def Allowed (F : RunFault → Prop) : Except RunFault α → Prop
  | .ok _ => True
  | .error fault => F fault

/-- Where something holds of the preloads, it still does when a part of a run has ended, and only
faults of a kind have ended it. -/
def FailsWith (I : PreloadState → Prop) (F : RunFault → Prop) (x : Run σ α) : Prop :=
  ∀ s r t, I s.preloads → Ends x s r t → I t.preloads ∧ Allowed F r

section

variable {I : PreloadState → Prop} {F : RunFault → Prop}

/-- Faults of a kind end a part of a run, whatever the state of preloads. -/
theorem failsWith_true_iff {x : Run σ α} :
    FailsWith (fun _ => True) F x ↔ ∀ s fault t, x s = .error fault t → F fault := by
  constructor
  · intro fails s fault t ended
    exact (fails s (.error fault) t trivial ended).2
  · intro fails s r t _ ended
    cases r with
    | ok a => exact ⟨trivial, trivial⟩
    | error fault => exact ⟨trivial, fails s fault t ended⟩

theorem FailsWith.bind {x : Run σ α} {f : α → Run σ β} (first : FailsWith I F x)
    (later : ∀ a, FailsWith I F (f a)) : FailsWith I F (x >>= f) := by
  intro s r t holds ended
  rcases ends_bind_iff.mp ended with ⟨a, m, middle, ended⟩ | ⟨fault, rfl, failed⟩
  · exact later a m r t (first s (.ok a) m holds middle).1 ended
  · exact first s (.error fault) t holds failed

/-- What always gives a value, and keeps what holds of the preloads, has no fault. -/
theorem failsWith_of_apply {x : Run σ α}
    (goes : ∀ s, ∃ a t, x s = .ok a t ∧ (I s.preloads → I t.preloads)) : FailsWith I F x := by
  intro s r t holds ended
  obtain ⟨a, u, gone, kept⟩ := goes s
  have gone : Ends x s (.ok a) u := gone
  obtain ⟨rfl, rfl⟩ := ended.unique gone
  exact ⟨kept holds, trivial⟩

theorem failsWith_pure {a : α} : FailsWith I F (pure a : Run σ α) :=
  failsWith_of_apply fun s => ⟨a, s, rfl, id⟩

theorem failsWith_throw {fault : RunFault} (possible : F fault) :
    FailsWith I F (throw fault : Run σ α) := by
  intro s r t holds ended
  cases r with
  | ok a => exact absurd ended throw_ne_ok
  | error found =>
    obtain ⟨rfl, rfl⟩ := throw_error_iff.mp ended
    exact ⟨holds, possible⟩

theorem failsWith_ask {effect : Effect σ α}
    (possible : ∀ world reason, (effect world).result = .error reason → F (.call reason)) :
    FailsWith I F (ask effect) := by
  intro s r t holds ended
  cases r with
  | ok a =>
    obtain ⟨-, rfl⟩ := ask_ok_iff.mp ended
    exact ⟨holds, trivial⟩
  | error found =>
    obtain ⟨reason, failed, rfl, rfl⟩ := ask_error_iff.mp ended
    exact ⟨holds, possible s.world reason failed⟩

/-- What the bench is asked for ends in no script error. -/
theorem failsWith_ask_unscripted {effect : Effect σ α} :
    FailsWith I RunFault.Unscripted (ask effect) :=
  failsWith_ask fun _ _ _ _ equal => by cases equal

theorem failsWith_emit {record : TraceRecord} : FailsWith I F (emit record : Run σ Unit) := by
  refine failsWith_of_apply fun s => ?_
  obtain ⟨log, ended⟩ := exists_emit_apply record s
  exact ⟨(), _, ended, id⟩

theorem failsWith_enter {verdict : Verdict} : FailsWith I F (enter verdict : Run σ Unit) := by
  refine failsWith_of_apply fun s => ?_
  obtain ⟨log, ended⟩ := exists_enter_apply verdict s
  exact ⟨(), _, ended, id⟩

/-- What has no possible fault ends with a value. -/
theorem exists_ok_of_failsWith_false {x : Run σ α} (never : FailsWith I (fun _ => False) x)
    {s : RunState σ} (holds : I s.preloads) : ∃ a t, x s = .ok a t ∧ I t.preloads := by
  cases ended : x s with
  | ok a t => exact ⟨a, t, rfl, (never s (.ok a) t holds ended).1⟩
  | error fault t => exact (never s (.error fault) t holds ended).2.elim

end

end Run

end BusScript
