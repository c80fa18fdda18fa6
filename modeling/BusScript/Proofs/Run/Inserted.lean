import Mathlib.Order.Monotone.Basic
import BusScript.Proofs.Run.Issuing
import BusScript.Proofs.Script.Reading

/-!
# Lines that do nothing

Lines without content and lines that the grammar refuses can be put into a script at any places
(`Script.Inserted`). The run does the same to its bench, observes and scores the same and writes the
same records under other line numbers. Each refused line is one error more, unless a fault stops the
run before it (`Engine.Passing`).
-/

namespace BusScript

open Script

/-! ## Scripts -/

namespace Script

variable {grammar : Grammar}

/-- The second list of physical lines is the first with lines put in: some without content, and so
many that the grammar refuses. -/
inductive Inserted (grammar : Grammar) : List (List Char) → List (List Char) → Nat → Prop
  | nil : Inserted grammar [] [] 0
  | kept {line copy : List Char} {lines more : List (List Char)} {refused : Nat} :
    stripLine copy = stripLine line → Inserted grammar lines more refused →
      Inserted grammar (line :: lines) (copy :: more) refused
  | idle {line : List Char} {lines more : List (List Char)} {refused : Nat} :
    stripLine line = [] → Inserted grammar lines more refused →
      Inserted grammar lines (line :: more) refused
  | refused {line : List Char} {error : ScriptError} {lines more : List (List Char)}
    {refused : Nat} :
    stripLine line ≠ [] →
      grammar.parse (String.ofList (stripLine line)) none = .error (.script error) →
      Inserted grammar lines more refused → Inserted grammar lines (line :: more) (refused + 1)

/-- The same for lines with content under their numbers. -/
inductive Interleaved (grammar : Grammar) (renumber : Nat → Nat) :
    List (Nat × String) → List (Nat × String) → Nat → Prop
  | nil : Interleaved grammar renumber [] [] 0
  | kept {number moved : Nat} {text : String} {lines more : List (Nat × String)} {refused : Nat} :
    renumber number = moved → Interleaved grammar renumber lines more refused →
      Interleaved grammar renumber ((number, text) :: lines) ((moved, text) :: more) refused
  | refused {number : Nat} {text : String} {error : ScriptError} {lines more : List (Nat × String)}
    {refused : Nat} :
    grammar.parse text (some number) = .error (.script error) →
      Interleaved grammar renumber lines more refused →
        Interleaved grammar renumber lines ((number, text) :: more) (refused + 1)

/-- A line is refused under every number. -/
theorem parse_of_refused {text : String} {error : ScriptError}
    (refused : grammar.parse text none = .error (.script error)) (number : Option Int) :
    ∃ found, grammar.parse text number = .error (.script found) := by
  have same := grammar.parse_mapLine (fun _ => number) text none
  rw [refused] at same
  exact ⟨_, same⟩

/-- Places behind a first line that is kept. -/
def keptFirst (place : Nat → Nat) : Nat → Nat
  | 0 => 0
  | i + 1 => place i + 1

theorem strictMono_keptFirst {place : Nat → Nat} (mono : StrictMono place) :
    StrictMono (keptFirst place) := by
  refine strictMono_nat_of_lt_succ fun i => ?_
  cases i with
  | zero => exact Nat.succ_pos _
  | succ i => exact Nat.succ_lt_succ (mono (Nat.lt_succ_self i))

/-- Lines move back in their order to make room for those that are put in. -/
theorem Inserted.exists_place {lines more : List (List Char)} {refused : Nat}
    (inserted : Inserted grammar lines more refused) :
    ∃ place : Nat → Nat, StrictMono place ∧
      (∀ i line, lines[i]? = some line →
        ∃ copy, more[place i]? = some copy ∧ stripLine copy = stripLine line) ∧
      ∀ first last renumber, (∀ i, renumber (first + 1 + i) = last + 1 + place i) →
        Interleaved grammar renumber (numbered first lines) (numbered last more) refused := by
  induction inserted with
  | nil => exact ⟨id, strictMono_id, by simp, fun _ _ _ _ => .nil⟩
  | @kept line copy lines more refused same _ ih =>
    obtain ⟨place, mono, copies, interleaved⟩ := ih
    refine ⟨keptFirst place, strictMono_keptFirst mono, ?copies, ?interleaved⟩
    case copies =>
      rintro (- | i) found given
      · cases given
        exact ⟨copy, rfl, same⟩
      · exact copies i found given
    case interleaved =>
      intro first last renumber places
      have onward := interleaved (first + 1) (last + 1) renumber fun i => by
        have here := places (i + 1)
        rw [keptFirst] at here
        rw [show first + 1 + 1 + i = first + 1 + (i + 1) by omega, here]
        omega
      by_cases idle : stripLine line = []
      · rw [numbered_cons_idle idle, numbered_cons_idle (same.trans idle)]
        exact onward
      · rw [numbered_cons idle, numbered_cons (same ▸ idle), same]
        exact .kept (places 0) onward
  | idle none _ ih =>
    obtain ⟨place, mono, copies, interleaved⟩ := ih
    refine ⟨fun i => place i + 1, fun _ _ less => Nat.succ_lt_succ (mono less), copies, ?_⟩
    intro first last renumber places
    rw [numbered_cons_idle none]
    refine interleaved first (last + 1) renumber fun i => (places i).trans ?_
    dsimp only
    omega
  | refused some refuses _ ih =>
    obtain ⟨place, mono, copies, interleaved⟩ := ih
    refine ⟨fun i => place i + 1, fun _ _ less => Nat.succ_lt_succ (mono less), copies, ?_⟩
    intro first last renumber places
    rw [numbered_cons some]
    obtain ⟨error, refuses⟩ := parse_of_refused refuses (.some ((last + 1 : Nat) : Int))
    refine .refused refuses (interleaved first (last + 1) renumber fun i => (places i).trans ?_)
    dsimp only
    omega

/-- Each line in common parts both lists, with some of the refused lines before it. -/
theorem Interleaved.split {renumber : Nat → Nat} {lines before after more : List (Nat × String)}
    {number refused : Nat} {text : String}
    (interleaved : Interleaved grammar renumber lines more refused)
    (parts : lines = before ++ (number, text) :: after) :
    ∃ passed rest counted, more = passed ++ (renumber number, text) :: rest ∧
      counted ≤ refused ∧ Interleaved grammar renumber before passed counted := by
  induction interleaved generalizing before with
  | nil => exact absurd parts.symm (List.append_ne_nil_of_right_ne_nil _ (List.cons_ne_nil _ _))
  | @kept first moved line lines more refused same _ ih =>
    cases before with
    | nil =>
      cases parts
      rw [same]
      exact ⟨[], more, 0, rfl, Nat.zero_le refused, .nil⟩
    | cons head before =>
      cases parts
      obtain ⟨passed, rest, counted, rfl, few, interleaved⟩ := ih rfl
      exact ⟨(moved, line) :: passed, rest, counted, rfl, few, .kept same interleaved⟩
  | @refused first line error lines more refused refuses _ ih =>
    obtain ⟨passed, rest, counted, rfl, few, interleaved⟩ := ih parts
    exact ⟨(first, line) :: passed, rest, counted + 1, rfl, Nat.succ_le_succ few,
      .refused refuses interleaved⟩

end Script

/-! ## Runs -/

/-- Lines under other numbers. -/
def moved (renumber : Nat → Nat) : Option Int → Option Int :=
  Option.map fun number => (renumber number.toNat : Int)

/-- The records are of physical lines with content, and stand under their positions. -/
def Placed {σ : Type} (physical : List (List Char)) (s : RunState σ) : Prop :=
  ∀ record ∈ s.traces, ∃ i line, physical[i]? = some line ∧ stripLine line ≠ [] ∧
    record.line = some ((i + 1 : Nat) : Int)

namespace Engine

open Run

variable {σ : Type} {e : Engine σ} {s t : RunState σ}

/-- A refused line counts as an error, and does nothing else. -/
theorem executeLine_of_refused {text : String} {line : Option Int} {error : ScriptError}
    (refused : e.grammar.parse text line = .error (.script error)) (s : RunState σ) :
    e.executeLine text line s = .ok () (counted error s) := by
  refine executeLine_ok_iff.mpr (.inr ⟨error, s, ?_, rfl⟩)
  exact perform_error_iff.mpr (.inl ⟨_, refused, rfl, rfl⟩)

/-- Refused lines between others add to the errors on their side, and nothing else. -/
theorem executeLines_of_interleaved {renumber : Nat → Nat} {lines more : List (Nat × String)}
    {refused errors : Nat} {m : RunState σ}
    (interleaved : Interleaved e.grammar renumber lines more refused)
    (abreast : Abreast Eq True (moved renumber) errors s t)
    (carried : e.executeLines lines s = .ok () m) :
    ∃ n, e.executeLines more t = .ok () n ∧
      Abreast Eq True (moved renumber) (errors + refused) m n := by
  induction interleaved generalizing errors s t with
  | nil =>
    obtain ⟨-, rfl⟩ := pure_ok_iff.mp carried
    exact ⟨t, rfl, abreast⟩
  | @kept number moved text lines more refused same _ ih =>
    obtain ⟨_, u, line, carried⟩ := bind_ok_iff.mp carried
    have pair := (Twin.refl e).parallel_executeLine text (some number) (fun _ _ => trivial)
      s t abreast
    obtain ⟨_, v, other, -, abreast⟩ := pair.of_ok line
    obtain ⟨n, rest, abreast⟩ := ih abreast carried
    rw [← same]
    exact ⟨n, bind_ok_iff.mpr ⟨_, v, other, rest⟩, abreast⟩
  | @refused number text error lines more refused refuses _ ih =>
    have next : Abreast Eq True (moved renumber) (errors + 1) s (counted error t) := by
      refine ⟨abreast.world, abreast.preloads, fun told => ?_, abreast.traces⟩
      obtain ⟨message, same⟩ := abreast.results told
      refine ⟨message, ?_⟩
      rw [counted, same]
      rfl
    obtain ⟨n, rest, abreast⟩ := ih next carried
    rw [Nat.add_right_comm] at abreast
    exact ⟨n, bind_ok_iff.mpr ⟨_, _, executeLine_of_refused refuses t, rest⟩, abreast⟩

/-- The run that a fault stops has so many of the refused lines behind it: all of them if it has
carried out all lines, and otherwise those that stand before the line that raises the fault. -/
inductive Passing (e : Engine σ) (renumber : Nat → Nat) (lines more : List (Nat × String))
    (refused : Nat) (start last : RunState σ) : Nat → Prop
  | all {m : RunState σ} : e.executeLines lines start = .ok () m →
    Passing e renumber lines more refused start last refused
  | some {number counted : Nat} {text : String} {before after passed rest : List (Nat × String)}
    {m : RunState σ} {fault : RunFault} :
    lines = before ++ (number, text) :: after → more = passed ++ (renumber number, text) :: rest →
      counted ≤ refused → Interleaved e.grammar renumber before passed counted →
      e.executeLines before start = .ok () m →
      e.executeLine text (some (number : Int)) m = .error fault last →
      Passing e renumber lines more refused start last counted

/-- A line that ends the run ends it on both sides. The refused lines before it have been
counted. -/
theorem stopped_of_interleaved {renumber : Nat → Nat} {lines more : List (Nat × String)}
    {refused errors : Nat} {fault : RunFault} {m : RunState σ}
    (interleaved : Interleaved e.grammar renumber lines more refused)
    (abreast : Abreast Eq True (moved renumber) errors s t)
    (stopped : e.executeLines lines s = .error fault m) :
    ∃ other n counted, e.executeLines more t = .error other n ∧ fault.Alike other ∧
      Passing e renumber lines more refused s m counted ∧
      Abreast Eq True (moved renumber) (errors + counted) m n := by
  obtain ⟨before, after, number, text, u, parts, carried, stops⟩ :=
    executeLines_error_iff.mp stopped
  obtain ⟨passed, rest, counted, same, few, between⟩ := interleaved.split parts
  obtain ⟨v, passes, abreast⟩ := executeLines_of_interleaved between abreast carried
  have pair := (Twin.refl e).parallel_executeLine text (.some (number : Int)) (fun _ _ => trivial)
    u v abreast
  obtain ⟨other, n, ends, alike, abreast⟩ := pair.of_error stops
  exact ⟨other, n, counted,
    executeLines_error_iff.mpr ⟨passed, rest, renumber number, text, v, same, passes, ends⟩,
    alike, .some parts same few between carried stops, abreast⟩

/-- A run over more lines does as the run over fewer: it ends as well, with the refused lines among
its errors, or it is stopped as well, with those among its errors that it has passed. -/
theorem run_of_interleaved {renumber : Nat → Nat} {lines more : List (Nat × String)}
    {refused errors : Nat} {tree other : Tree} {source changed last final : Source}
    (interleaved : Interleaved e.grammar renumber lines more refused)
    (given : source.readAll tree = (lines, none, last))
    (gives : changed.readAll other = (more, none, final))
    (abreast : Abreast Eq True (moved renumber) errors s t) :
    (∀ results m, e.run tree source s = .ok results m →
      ∃ found n, e.run other changed t = .ok found n ∧ results.Ahead (errors + refused) found ∧
        Abreast Eq True (moved renumber) (errors + refused) m n) ∧
    ∀ fault m, e.run tree source s = .error fault m →
      ∃ found n counted, e.run other changed t = .error found n ∧ fault.Alike found ∧
        (∃ log, Passing e renumber lines more refused { s with log } m counted) ∧
        Abreast Eq True (moved renumber) (errors + counted) m n := by
  rw [run_of_readable given, run_of_readable gives, bind_apply (say_apply _ _ _ s),
    bind_apply (say_apply _ _ _ t)]
  generalize s.log.push _ = log
  generalize t.log.push _ = logs
  have abreast : Abreast Eq True (moved renumber) errors { s with log } { t with log := logs } :=
    ⟨abreast.world, abreast.preloads, abreast.results, abreast.traces⟩
  cases carried : e.executeLines lines { s with log } with
  | ok _ u =>
    obtain ⟨v, carries, abreast⟩ := executeLines_of_interleaved interleaved abreast carried
    have tail := (Twin.refl e).parallel_settle.bind (fun _ _ _ => parallel_results) u v abreast
    rw [bind_apply carried, bind_apply carries]
    constructor
    · intro results m ended
      obtain ⟨found, n, ends, ahead, abreast⟩ := tail.of_ok ended
      exact ⟨found, n, ends, ahead trivial, abreast⟩
    · intro fault m stopped
      obtain ⟨found, n, stops, alike, abreast⟩ := tail.of_error stopped
      exact ⟨found, n, refused, stops, alike, ⟨log, .all carried⟩, abreast⟩
  | error fault u =>
    obtain ⟨found, v, counted, stops, alike, passing, abreast⟩ :=
      stopped_of_interleaved interleaved abreast carried
    constructor
    · intro results m ended
      obtain ⟨_, n, ends, -⟩ := bind_ok_iff.mp ended
      cases carried.symm.trans ends
    · intro other m stopped
      rcases bind_error_iff.mp stopped with same | ⟨_, n, ends, -⟩
      · cases carried.symm.trans same
        exact ⟨found, v, counted, bind_error_iff.mpr (.inl stops), alike, ⟨log, passing⟩, abreast⟩
      · cases carried.symm.trans ends

/-- Runs that start alike, with no records and no preload, are abreast under all numbers. -/
theorem abreast_of_fresh {seen : Prop} {renumber : Option Int → Option Int}
    (untraced : s.traces = #[]) (unloaded : s.preloads = .idle none) :
    Abreast Eq seen renumber 0 s s := by
  refine ⟨rfl, ?_, fun _ => ⟨_, rfl⟩, fun _ => ?_⟩
  · rw [unloaded]
    rfl
  · rw [untraced, Array.map_empty]

/-- All records of a run stand under numbers of its lines, since it would be the same run if all
other numbers were changed. -/
theorem line_of_mem_traces {tree : Tree} {source : Source} {result : Except RunFault Results}
    (ended : Ends (e.run tree source) s result t) (untraced : s.traces = #[])
    (unloaded : s.preloads = .idle none) {record : TraceRecord} (member : record ∈ t.traces) :
    ∃ line ∈ (source.readAll tree).1, record.line = some (line.1 : Int) := by
  classical
  let known (number : Option Int) : Prop :=
    ∃ line ∈ (source.readAll tree).1, number = some (line.1 : Int)
  -- No number but those of the lines is left as it is.
  let change (number : Option Int) : Option Int :=
    if known number then number else number.elim (some 0) fun _ => none
  have abreast : Abreast Eq True change 0 s s := abreast_of_fresh untraced unloaded
  have fixed : ∀ line ∈ (source.readAll tree).1, change (some line.1) = some (line.1 : Int) :=
    fun line member => if_pos ⟨line, member, rfl⟩
  have pair := (Twin.refl e).parallel_run (fun _ _ _ _ => trivial) fixed s s abreast
  have same : t.traces = t.traces.map (TraceRecord.mapLine change) := by
    cases result with
    | ok results =>
      rw [show e.run tree source s = .ok results t from ended] at pair
      cases pair with
      | ok _ abreast => exact abreast.traces trivial
    | error fault =>
      rw [show e.run tree source s = .error fault t from ended] at pair
      cases pair with
      | error _ abreast => exact abreast.traces trivial
  obtain ⟨i, bound, rfl⟩ := Array.mem_iff_getElem.mp member
  have kept : change t.traces[i].line = t.traces[i].line := by
    have here := congrArg (fun traces => (traces[i]?).map (·.line)) same
    simp only [Array.getElem?_map, Array.getElem?_eq_getElem bound, Option.map_some,
      Option.some.injEq] at here
    exact here.symm
  by_contra unknown
  have other : change t.traces[i].line = t.traces[i].line.elim (some 0) fun _ => none :=
    if_neg unknown
  rw [other] at kept
  cases line : t.traces[i].line with
  | none => rw [line] at kept; cases kept
  | some number => rw [line] at kept; cases kept

/-- All records of the run of a script stand under the physical positions of its lines. -/
theorem placed_of_run {tree : Tree} {source : Source} {physical : List (List Char)}
    {result : Except RunFault Results} (reads : source.Over tree physical)
    (ended : Ends (e.run tree source) s result t) (untraced : s.traces = #[])
    (unloaded : s.preloads = .idle none) : Placed physical t := by
  intro record member
  obtain ⟨last, given⟩ := reads.readAll_eq
  obtain ⟨⟨number, text⟩, listed, line⟩ := line_of_mem_traces ended untraced unloaded member
  rw [given] at listed
  obtain ⟨i, content, at_, position, some, -⟩ := mem_numbered_iff.mp listed
  refine ⟨i, content, at_, some, ?_⟩
  rw [line, position, Nat.zero_add, Nat.add_comm]

/-- The run of a script with lines put in that have no content or that the grammar refuses comes to
the same end as the run without them. It asks the bench for the same, gets the same answers and
scores the same, and its records are the same under the numbers of the lines' new places. If the
runs end, each refused line is one error more. If a fault stops them, those are that stand before
the line that raises it. -/
theorem run_ignores_inserted_lines {tree other : Tree} {source changed : Source}
    {lines more : List (List Char)} {refused : Nat} (reads : source.Over tree lines)
    (readsMore : changed.Over other more) (inserted : Inserted e.grammar lines more refused)
    (world : Noted σ) :
    ∃ place renumber : Nat → Nat, StrictMono place ∧ (∀ i, renumber (i + 1) = place i + 1) ∧
      (∀ i line, lines[i]? = some line →
        ∃ copy, more[place i]? = some copy ∧ stripLine copy = stripLine line) ∧
      (source.readAll tree).1 = numbered 0 lines ∧ (changed.readAll other).1 = numbered 0 more ∧
      (∀ results s, e.noted.run tree source { world } = .ok results s →
        ∃ found t, e.noted.run other changed { world } = .ok found t ∧
          results.Ahead refused found ∧ Abreast Eq True (moved renumber) refused s t ∧
          Placed lines s ∧ Placed more t) ∧
      (∀ fault s, e.noted.run tree source { world } = .error fault s →
        ∃ found t counted, e.noted.run other changed { world } = .error found t ∧
          fault.Alike found ∧ Abreast Eq True (moved renumber) counted s t ∧
          Placed lines s ∧ Placed more t ∧
          ∃ log, Passing e.noted renumber (numbered 0 lines) (numbered 0 more) refused
            { world, log } s counted) := by
  obtain ⟨place, mono, copies, interleaved⟩ := inserted.exists_place
  obtain ⟨last, given⟩ := reads.readAll_eq
  obtain ⟨final, gives⟩ := readsMore.readAll_eq
  let renumber (number : Nat) : Nat := place (number - 1) + 1
  have between : Interleaved e.noted.grammar renumber (numbered 0 lines) (numbered 0 more)
      refused := by
    apply interleaved 0 0
    intro i
    show place (0 + 1 + i - 1) + 1 = 0 + 1 + place i
    rw [Nat.zero_add, Nat.add_sub_cancel_left, Nat.add_comm]
  have fresh : Abreast Eq True (moved renumber) 0 { world : RunState (Noted σ) } { world } :=
    abreast_of_fresh rfl rfl
  obtain ⟨ends, stops⟩ := run_of_interleaved between given gives fresh
  simp only [Nat.zero_add] at ends stops
  refine ⟨place, renumber, mono, fun _ => rfl, copies, by rw [given], by rw [gives], ?_, ?_⟩
  · intro results s ended
    obtain ⟨found, t, also, ahead, abreast⟩ := ends results s ended
    have here : Ends (e.noted.run tree source) { world } (.ok results) s := ended
    have there : Ends (e.noted.run other changed) { world } (.ok found) t := also
    exact ⟨found, t, also, ahead, abreast, placed_of_run reads here rfl rfl,
      placed_of_run readsMore there rfl rfl⟩
  · intro fault s stopped
    obtain ⟨found, t, counted, also, alike, passing, abreast⟩ := stops fault s stopped
    have here : Ends (e.noted.run tree source) { world } (.error fault) s := stopped
    have there : Ends (e.noted.run other changed) { world } (.error found) t := also
    exact ⟨found, t, counted, also, alike, abreast, placed_of_run reads here rfl rfl,
      placed_of_run readsMore there rfl rfl, passing⟩

/-- A comment, an empty line and a line with an unknown operation are put into a script of a read
and a wait. The read is compared as before, and there is one error more. -/
theorem run_ignores_inserted_comment :
    let source := Source.ofText "AHB READ 0x10 0x5\nWAIT 3"
    let changed := Source.ofText "# reads\nAHB READ 0x10 0x5\n\nAHB ERASE 0x10\nWAIT 3\n"
    ∃ place renumber : Nat → Nat, StrictMono place ∧ (∀ i, renumber (i + 1) = place i + 1) ∧
      ∃ results final found last,
        silentEngine.noted.run {} source { world := ⟨(), []⟩ } = .ok results final ∧
        silentEngine.noted.run {} changed { world := ⟨(), []⟩ } = .ok found last ∧
        last.world = final.world ∧ found.total = results.total ∧ found.failed = results.failed ∧
        found.errors = results.errors + 1 ∧
        last.traces = final.traces.map (TraceRecord.mapLine (moved renumber)) := by
  intro source changed
  have before : Text.lines "AHB READ 0x10 0x5\nWAIT 3".toList =
      ["AHB READ 0x10 0x5".toList, "WAIT 3".toList] := by decide +kernel
  have after : Text.lines "# reads\nAHB READ 0x10 0x5\n\nAHB ERASE 0x10\nWAIT 3\n".toList =
      ["# reads".toList, "AHB READ 0x10 0x5".toList, [], "AHB ERASE 0x10".toList,
        "WAIT 3".toList] := by decide +kernel
  have reads : source.Over {} (Text.lines "AHB READ 0x10 0x5\nWAIT 3".toList) := .text _
  have readsMore : changed.Over {}
      (Text.lines "# reads\nAHB READ 0x10 0x5\n\nAHB ERASE 0x10\nWAIT 3\n".toList) := .text _
  have stripped : stripLine "AHB ERASE 0x10".toList = "AHB ERASE 0x10".toList := by
    decide +kernel
  obtain ⟨error, refuses⟩ : ∃ error,
      silentEngine.grammar.parse "AHB ERASE 0x10" none = .error (.script error) := ⟨_, rfl⟩
  have inserted : Inserted silentEngine.grammar (Text.lines "AHB READ 0x10 0x5\nWAIT 3".toList)
      (Text.lines "# reads\nAHB READ 0x10 0x5\n\nAHB ERASE 0x10\nWAIT 3\n".toList) 1 := by
    rw [before, after]
    apply Inserted.idle (by decide +kernel)
    apply Inserted.kept rfl
    apply Inserted.idle rfl
    apply Inserted.refused (by decide +kernel)
    · rw [stripped, String.ofList_toList]
      exact refuses
    · exact .kept rfl .nil
  obtain ⟨place, renumber, mono, moves, -, -, -, ends, -⟩ :=
    run_ignores_inserted_lines reads readsMore inserted ⟨(), []⟩
  have returns : (match silentEngine.noted.run {} source { world := ⟨(), []⟩ } with
      | .ok _ _ => true
      | .error _ _ => false) = true := by decide +kernel
  split at returns
  · rename_i results final ended
    obtain ⟨found, last, also, ahead, abreast, -, -⟩ := ends results final ended
    obtain ⟨message, rfl⟩ := ahead
    exact ⟨place, renumber, mono, moves, results, final, _, last, ended, also, abreast.world.symm,
      rfl, rfl, rfl, abreast.traces trivial⟩
  · exact absurd returns (by decide)

/-- No preload is ever done, and a wait for one that has run into its bound stops the run. -/
def stalledEngine : Engine Unit where
  bench := {
    loader := some {
      request := fun _ _ world => ⟨.ok 0, world, []⟩
      done := fun _ _ => false
      wait := fun _ _ world => ⟨.ok false, world, []⟩ } }
  config := { preloadPolicy := .abort }

/-- A refused line behind the line that stops a run is no error of it. -/
theorem stalled_run_misses_inserted_line :
    Inserted stalledEngine.grammar
      (Text.lines "PRELOAD top.ram a.hex\nPRELOAD top.ram b.hex".toList)
      (Text.lines "PRELOAD top.ram a.hex\nPRELOAD top.ram b.hex\nAHB ERASE 0x10".toList) 1 ∧
    ∃ fault s found t,
      stalledEngine.run {} (.ofText "PRELOAD top.ram a.hex\nPRELOAD top.ram b.hex")
        { world := () } = .error fault s ∧
      stalledEngine.run {} (.ofText "PRELOAD top.ram a.hex\nPRELOAD top.ram b.hex\nAHB ERASE 0x10")
        { world := () } = .error found t ∧
      s.results.errors = 0 ∧ t.results.errors = 0 ∧ t.results.errors ≠ s.results.errors + 1 := by
  have before : Text.lines "PRELOAD top.ram a.hex\nPRELOAD top.ram b.hex".toList =
      ["PRELOAD top.ram a.hex".toList, "PRELOAD top.ram b.hex".toList] := by decide +kernel
  have after :
      Text.lines "PRELOAD top.ram a.hex\nPRELOAD top.ram b.hex\nAHB ERASE 0x10".toList =
        ["PRELOAD top.ram a.hex".toList, "PRELOAD top.ram b.hex".toList,
          "AHB ERASE 0x10".toList] := by decide +kernel
  have stripped : stripLine "AHB ERASE 0x10".toList = "AHB ERASE 0x10".toList := by decide +kernel
  obtain ⟨error, refuses⟩ : ∃ error,
      stalledEngine.grammar.parse "AHB ERASE 0x10" none = .error (.script error) := ⟨_, rfl⟩
  constructor
  · rw [before, after]
    apply Inserted.kept rfl
    apply Inserted.kept rfl
    apply Inserted.refused (by decide +kernel)
    · rw [stripped, String.ofList_toList]
      exact refuses
    · exact .nil
  · have counts (script : String)
        (stops : (match stalledEngine.run {} (.ofText script) { world := () } with
          | .ok _ _ => false
          | .error _ s => s.results.errors == 0) = true) :
        ∃ fault s, stalledEngine.run {} (.ofText script) { world := () } = .error fault s ∧
          s.results.errors = 0 := by
      split at stops
      · cases stops
      · exact ⟨_, _, ‹_›, beq_iff_eq.mp stops⟩
    obtain ⟨fault, s, here, none⟩ := counts "PRELOAD top.ram a.hex\nPRELOAD top.ram b.hex"
      (by decide +kernel)
    obtain ⟨found, t, there, also⟩ := counts
      "PRELOAD top.ram a.hex\nPRELOAD top.ram b.hex\nAHB ERASE 0x10" (by decide +kernel)
    exact ⟨fault, s, found, t, here, there, none, also, by omega⟩

end Engine

end BusScript
