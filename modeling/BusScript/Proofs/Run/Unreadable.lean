import BusScript.Proofs.Bench.Noted
import BusScript.Proofs.Run.Accounting
import BusScript.Proofs.Script.Faults

/-!
# Scripts that cannot be read

A run is aborted when its script cannot be opened, or when it comes to a block of the script that
does not decode. Before that it has carried out the lines that end in the blocks before. So an
aborted run has done nothing exactly if none of these lines has content
(`Engine.aborted_run_undone_iff`), as when the fault is in the first block.
-/

namespace BusScript.Engine

open Run Script Text

variable {σ : Type} {e : Engine σ} {s t : RunState σ}

/-! ## Abortion -/

theorem aborted_of_perform {text : String} {line : Option Int} {fault : RunFault}
    (failed : e.perform text line s = .error fault t) :
    t.results.aborted = s.results.aborted := by
  rcases uncounted_or_timeout_of_perform failed with same | timeout
  · rw [same]
  · rw [timeout, Results.recordTimeout]

/-- No line aborts the run, whatever it comes to. -/
theorem aborted_of_executeLines {lines : List (Nat × String)} {r : Except RunFault Unit}
    (ended : Ends (e.executeLines lines) s r t) : t.results.aborted = s.results.aborted := by
  cases r with
  | ok _ => exact (grown_of_lines (lines_of_executeLines ended)).aborted
  | error fault =>
    obtain ⟨before, after, number, text, m, -, carried, stops⟩ := executeLines_error_iff.mp ended
    have still := (grown_of_lines (lines_of_executeLines carried)).aborted
    exact (aborted_of_perform (executeLine_error_iff.mp stops).1).trans still

theorem aborted_of_settle {r : Except RunFault Unit} (ended : Ends e.settle s r t) :
    t.results.aborted = s.results.aborted := by
  rcases (uncounted_or_timeout_of_settle ended).1 with same | timeout
  · rw [same]
  · rw [timeout, Results.recordTimeout]

/-- A run that is aborted could not open its script, or it has carried out all lines that it could
read of it, and then waited for a preload. -/
inductive Aborted (e : Engine σ) (tree : Tree) (source : Source) (s : RunState σ) :
    RunState σ → Prop
  | unopened {fault : SourceFault} {log : Array LogRecord} :
    source.opened tree = .error fault → fault ≠ .nul →
      Aborted e tree source s { s with results := s.results.abort fault.message, log }
  | unread {opened : Source} {fault : SourceFault} {m t : RunState σ} {log logs : Array LogRecord}
    {r : Except RunFault Unit} :
    source.opened tree = .ok opened → (source.readAll tree).2.1 = some fault →
      e.executeLines (source.readAll tree).1 { s with log } = .ok () m →
      Ends e.settle { m with results := m.results.abort fault.message, log := logs } r t →
      Aborted e tree source s t

/-- A run that cannot open its script tells so and ends. -/
theorem exists_log_of_abort {message : String} {result : Except RunFault Results}
    (ended : Ends (do abort message; return (← get).results) s result t) :
    ∃ log, t = { s with results := s.results.abort message, log } := by
  have told : Ends (do abort message; return (← get).results : Run σ Results) s
      (.ok (s.results.abort message))
      { s with
        results := s.results.abort message
        log := s.log.push ⟨.error, .engine, message⟩ } := rfl
  exact ⟨_, (ended.unique told).2⟩

/-- The end of a run is the wait for a preload. -/
theorem ends_settle_of_tail {result : Except RunFault Results}
    (ended : Ends (do e.settle; return (← get).results) s result t) :
    ∃ r, Ends e.settle s r t := by
  rcases ends_bind_iff.mp ended with ⟨_, m, settled, ended⟩ | ⟨fault, -, settled⟩
  · have last : Ends (do return (← get).results : Run σ Results) m (.ok m.results) m := rfl
    rw [(ended.unique last).2]
    exact ⟨_, settled⟩
  · exact ⟨_, settled⟩

theorem aborted_of_run {tree : Tree} {source : Source} {result : Except RunFault Results}
    (ended : Ends (e.run tree source) s result t) (before : s.results.aborted = false)
    (after : t.results.aborted = true) : Aborted e tree source s t := by
  -- Only an end that changes the flag is that of an aborted run.
  have differs {m : RunState σ} (same : t.results.aborted = m.results.aborted)
      (still : m.results.aborted = s.results.aborted) : False := by
    rw [same, still, before] at after
    cases after
  unfold run at ended
  cases opens : source.opened tree with
  | error fault =>
    rw [opens] at ended
    cases fault with
    | nul =>
      have thrown : Ends (throw .nul : Run σ Results) s (.error .nul) s := rfl
      rw [(ended.unique thrown).2] at differs
      exact (differs rfl rfl).elim
    | _ =>
      obtain ⟨log, rfl⟩ := exists_log_of_abort ended
      exact .unopened opens (by simp)
  | ok opened =>
    simp only [opens, Source.readAll_of_opened opens] at ended
    rcases ends_bind_iff.mp ended with ⟨_, first, said, ended⟩ | ⟨_, -, said⟩
    · cases said
      rcases ends_bind_iff.mp ended with ⟨_, m, carried, ended⟩ | ⟨fault, -, stopped⟩
      · have still : m.results.aborted = s.results.aborted := (aborted_of_executeLines carried :)
        cases failed : (source.readAll tree).2.1 with
        | none =>
          simp only [failed] at ended
          obtain ⟨r, settled⟩ := ends_settle_of_tail ended
          exact (differs (aborted_of_settle settled) still).elim
        | some fault =>
          simp only [failed] at ended
          rcases ends_bind_iff.mp ended with ⟨_, n, aborts, ended⟩ | ⟨_, -, aborts⟩
          · cases aborts
            obtain ⟨r, settled⟩ := ends_settle_of_tail ended
            exact .unread opens failed carried settled
          · cases aborts
      · have still : t.results.aborted = s.results.aborted := (aborted_of_executeLines stopped :)
        exact (differs rfl still).elim
    · cases said

/-! ## What was done before -/

/-- The bench was asked for nothing, no record was written and nothing was counted. -/
structure Undone (s t : RunState σ) : Prop where
  world : t.world = s.world
  traces : t.traces = #[]
  total : t.results.total = 0
  passed : t.results.passed = 0
  failed : t.results.failed = 0
  errors : t.results.errors = 0
  timeouts : t.results.timeouts = 0

variable {tree : Tree} {source : Source} {world : σ}

/-- A run without lines has done nothing. -/
theorem undone_of_aborted (aborted : Aborted e tree source { world } t)
    (none : (source.readAll tree).1 = []) : Undone { world } t := by
  cases aborted with
  | unopened => constructor <;> rfl
  | unread opens failed carried settled =>
    rw [none] at carried
    cases carried
    rcases waited_of_settle settled with rfl | ⟨coordinator, q, -, waited⟩
    · constructor <;> rfl
    · cases waited with
      | idle => constructor <;> rfl
      | broken unsound => exact absurd (PreloadState.sound_of_idle rfl) unsound
      | _ outstanding => cases outstanding

/-- Each line counts or leaves a record. -/
theorem no_lines_of_undone {m : RunState σ} {log logs : Array LogRecord} {message : String}
    {lines : List (Nat × String)} {r : Except RunFault Unit}
    (carried : e.executeLines lines { world, log } = .ok () m)
    (settled : Ends e.settle { m with results := m.results.abort message, log := logs } r t)
    (undone : Undone { world } t) : lines = [] := by
  have accounted := accounted_of_lines rfl rfl (lines_of_executeLines carried)
  obtain ⟨results, traces⟩ := uncounted_or_timeout_of_settle settled
  have errors : t.results.errors = m.results.errors := by
    rcases results with same | timeout
    · rw [same, Results.abort]
    · rw [timeout, Results.recordTimeout, Results.abort]
  have counts := accounted.errors
  have traces : m.traces = #[] := traces.symm.trans undone.traces
  rw [← errors, undone.errors, traces, List.length_map, List.length_map] at counts
  have empty : countStatus .unscored #[] = 0 := rfl
  rw [empty, List.size_toArray, List.length_nil] at counts
  exact List.length_eq_zero_iff.mp (by omega)

/-- A file that is a text does not abort a run. -/
theorem not_aborted_of_over {physical : List (List Char)} (reads : source.Over tree physical) :
    ¬Aborted e tree source s t := by
  obtain ⟨last, all⟩ := reads.readAll_eq
  intro aborted
  cases aborted with
  | unopened opens =>
    rw [Source.readAll, opens] at all
    cases congrArg (fun given => given.2.1) all
  | unread _ failed =>
    rw [all] at failed
    cases failed

/-- If the first run of an engine is aborted, then the file of its script cannot be opened and
nothing has been done, or the file is no text. Then the lines that end in the blocks before the one
with the fault have been carried out, so nothing has been done exactly if these have no content. -/
theorem aborted_run_undone_iff {path : String} {world : Noted σ} {t : RunState (Noted σ)}
    {result : Except RunFault Results}
    (ended : Ends (e.noted.run tree (.ofFile path)) { world } result t)
    (aborted : t.results.aborted = true) :
    (∃ fault, tree.read path = .error (.file fault)) ∧ Undone { world } t ∨
      ∃ bytes blocks, tree.read path = .ok bytes ∧ Reader.Breaks { rest := bytes } blocks ∧
        (∃ log m, t.traces = m.traces ∧ e.noted.executeLines
          (numbered 0 (endedLines (Reader.ahead { rest := bytes } blocks))) { world, log } =
            .ok () m) ∧
        (Undone { world } t ↔
          ∀ line ∈ endedLines (Reader.ahead { rest := bytes } blocks), stripLine line = []) := by
  have aborted := aborted_of_run ended rfl aborted
  rcases read : tree.read path with fault | bytes
  · have opens := Source.opened_ofFile_error read
    cases fault with
    | nul =>
      cases aborted with
      | unopened failed other =>
        cases opens.symm.trans failed
        exact absurd rfl other
      | unread opened => cases opens.symm.trans opened
    | file fault =>
      have none : ((Source.ofFile path).readAll tree).1 = [] := by rw [Source.readAll, opens]
      exact .inl ⟨⟨fault, rfl⟩, undone_of_aborted aborted none⟩
  · have broken (text : List Char) : Utf8.decodeAll bytes ≠ .ok text := by
      intro decoded
      exact not_aborted_of_over (.file read decoded) aborted
    obtain ⟨blocks, fault, last, breaks, all⟩ := Source.readAll_of_broken read broken
    have given : ((Source.ofFile path).readAll tree).1 =
        numbered 0 (endedLines (Reader.ahead { rest := bytes } blocks)) := by rw [all]
    have nothing := undone_of_aborted aborted
    rw [given] at nothing
    cases aborted with
    | unopened failed => cases (Source.opened_ofFile read 0).symm.trans failed
    | @unread _ _ m _ _ _ _ _ _ carried settled =>
      rw [given] at carried
      have traces : t.traces = m.traces := (uncounted_or_timeout_of_settle settled).2
      refine .inr ⟨bytes, blocks, rfl, breaks, ⟨_, _, traces, carried⟩, ?_⟩
      rw [← @numbered_eq_nil_iff 0]
      exact ⟨no_lines_of_undone carried settled, nothing⟩

/-- The first block of a script breaks off in a character, and nothing is done. -/
theorem unreadable_run_undone :
    let tree : Tree := ⟨[(["s.stim"], .file [0xC3, 0x0A])]⟩
    let e : Engine Unit := { bench := {} }
    ∃ results t, e.noted.run tree (.ofFile "s.stim") { world := ⟨(), []⟩ } = .ok results t ∧
      results.aborted = true ∧ Undone { world := ⟨(), []⟩ } t := by
  intro tree e
  have ends : (match e.noted.run tree (.ofFile "s.stim") { world := ⟨(), []⟩ } with
      | .ok results t => decide (results.aborted = true ∧ t.results.aborted = true)
      | .error _ _ => false) = true := by decide +kernel
  split at ends
  · rename_i results t ended
    obtain ⟨aborted, last⟩ := of_decide_eq_true ends
    have given : tree.read "s.stim" = .ok [0xC3, 0x0A] := by decide +kernel
    have ended : Ends (e.noted.run tree (.ofFile "s.stim")) { world := ⟨(), []⟩ }
      (.ok results) t := ended
    refine ⟨results, t, ended, aborted, ?_⟩
    rcases aborted_run_undone_iff ended last with
      ⟨-, undone⟩ | ⟨bytes, blocks, read, breaks, -, undone⟩
    · exact undone
    · cases given.symm.trans read
      have first : Reader.Breaks { rest := [0xC3, 0x0A] } 0 :=
        ⟨by decide, by decide +kernel, .inl (by decide +kernel)⟩
      obtain rfl := breaks.unique first
      apply undone.mpr
      have none : endedLines (Reader.ahead { rest := [0xC3, 0x0A] } 0) = [] := by decide +kernel
      rw [none]
      exact List.forall_mem_nil _
  · cases ends

/-- A wait, and behind it a character that the end of the file cuts short. -/
def waitAndCut : List UInt8 :=
  Utf8.encode "WAIT 1\n".toList ++ [0xC3]

/-- The wait is carried out before the run is aborted. -/
theorem unreadable_run_waits :
    let tree : Tree := ⟨[(["s.stim"], .file waitAndCut)]⟩
    let e : Engine Unit := { bench := { clock := some fun _ world => ⟨.ok (), world, []⟩ } }
    ∃ results t, e.noted.run tree (.ofFile "s.stim") { world := ⟨(), []⟩ } = .ok results t ∧
      results.aborted = true ∧ t.world.history = [.cycles 1] ∧ t.traces.size = 1 ∧
      ¬Undone { world := ⟨(), []⟩ } t := by
  intro tree e
  have ends : (match e.noted.run tree (.ofFile "s.stim") { world := ⟨(), []⟩ } with
      | .ok results t => decide (results.aborted = true ∧ t.world.history = [.cycles 1] ∧
          t.traces.size = 1)
      | .error _ _ => false) = true := by decide +kernel
  split at ends
  · rename_i results t ended
    obtain ⟨aborted, history, traces⟩ := of_decide_eq_true ends
    refine ⟨results, t, ended, aborted, history, traces, fun undone => ?_⟩
    rw [undone.traces] at traces
    cases traces
  · cases ends

end BusScript.Engine
