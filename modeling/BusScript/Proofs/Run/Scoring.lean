import BusScript.Bench.Recording
import BusScript.Proofs.Bench.Overlap
import BusScript.Proofs.Run.Execution

/-!
# Scores of reads

What the check of a read comes to, whatever its transactor answers. A read that the grammar accepts
expects nothing, or data of the shape that its transactor answers with: a word of a single AHB read,
beats of any other. So the check passes exactly if the data are the same, beat by beat, and it
counts once. Of as many beats as expected a failure names the first that differs, with its values,
and the address at which the memory model fetches that beat of this very burst.
-/

namespace BusScript

/-! ## First differences -/

/-- Two lists agree up to a position, and differ there. -/
structure DifferAt (expected observed : List Int) (i : Nat) (wanted seen : Int) : Prop where
  expects : expected[i]? = some wanted
  sees : observed[i]? = some seen
  differ : seen ≠ wanted
  before : ∀ j < i, observed[j]? = expected[j]?

theorem DifferAt.cons {expected observed : List Int} {i : Nat} {wanted seen : Int}
    (later : DifferAt expected observed i wanted seen) (first : Int) :
    DifferAt (first :: expected) (first :: observed) (i + 1) wanted seen where
  expects := later.expects
  sees := later.sees
  differ := later.differ
  before
    | 0, _ => rfl
    | j + 1, below => later.before j (Nat.lt_of_succ_lt_succ below)

theorem firstDifference?_self (index : Nat) (words : List Int) :
    firstDifference? index words words = none := by
  induction words generalizing index with
  | nil => rfl
  | cons word words ih =>
    rw [firstDifference?, if_pos rfl]
    exact ih (index + 1)

/-- Two lists of one length are the same, or there is a first place at which they differ. -/
theorem eq_or_differAt {expected observed : List Int} (same : observed.length = expected.length)
    (index : Nat) : observed = expected ∨ ∃ i wanted seen,
      firstDifference? index expected observed = some (index + i, wanted, seen) ∧
        DifferAt expected observed i wanted seen := by
  induction expected generalizing observed index with
  | nil => exact .inl (List.length_eq_zero_iff.mp same)
  | cons wanted expected ih =>
    cases observed with
    | nil => cases same
    | cons seen observed =>
      by_cases equal : wanted = seen
      · subst equal
        rw [firstDifference?, if_pos rfl]
        rcases ih (Nat.succ.inj same) (index + 1) with rfl | ⟨i, a, b, found, differ⟩
        · exact .inl rfl
        · refine .inr ⟨i + 1, a, b, ?_, differ.cons wanted⟩
          rw [found, Nat.add_assoc, Nat.add_comm 1 i]
      · refine .inr ⟨0, wanted, seen, ?_, rfl, rfl, Ne.symm equal, fun j below => ?_⟩
        · rw [firstDifference?, if_neg equal, Nat.add_zero]
        · exact absurd below (Nat.not_lt_zero j)

/-! ## What is expected -/

/-- What was observed is what was expected: the same word, or as many beats, and the same word on
every one of them. -/
def Data.Meets (observed expected : Data) : Prop :=
  match observed, expected with
  | .word seen, .word wanted => seen = wanted
  | .beats seen, .beats wanted =>
    seen.length = wanted.length ∧ ∀ i < wanted.length, seen[i]? = wanted[i]?
  | _, _ => False

theorem Data.meets_beats_iff {seen wanted : List Int} :
    (Data.beats seen).Meets (.beats wanted) ↔ seen = wanted := by
  constructor
  · rintro ⟨count, each⟩
    refine List.ext_getElem? fun i => ?_
    by_cases inside : i < wanted.length
    · exact each i inside
    · rw [List.getElem?_eq_none (by omega), List.getElem?_eq_none (by omega)]
  · rintro rfl
    exact ⟨rfl, fun _ _ => rfl⟩

namespace Transaction

variable {t : Transaction} {grammar : Grammar} {line : Option Int}

/-! ## Addresses of beats -/

/-- Whatever a memory model of this width holds, its transactor fetches a beat of the burst that the
transaction reads at this address, which is one of the memory. -/
def FetchesAt (t : Transaction) (width : AxiWidth) (i : Nat) (address : Int) : Prop :=
  Fits addressWidth address ∧
    ∀ (setup : Model.Setup) (world : Model.World), setup.axiWidth = width.bits →
      let response := Model.transactor setup
        (.readBurst t.address t.burst t.length (.size t.size)) world
      ∃ words : List Int, response.result = .ok words ∧
        words[i]? = some (response.state.shared.read address t.beatBytes.toNat : Int)

theorem fits_beatAddress (t : Transaction) (i : Nat) : Fits addressWidth (t.beatAddress i) := by
  have cut (address : Int) : Fits addressWidth (address32 address) :=
    ⟨Int.emod_nonneg address (by decide), Int.emod_lt_of_pos address (by decide)⟩
  unfold beatAddress BusScript.beatAddress
  split
  · exact cut _
  · split
    · exact cut _
    · exact cut _

theorem WellFormed.fetchesAt_beatAddress (formed : t.WellFormed grammar line) {i : Nat}
    (inside : i < t.beats) : t.FetchesAt grammar.axiWidth i (t.beatAddress i) := by
  refine ⟨t.fits_beatAddress i, fun setup world width => ?_⟩
  obtain ⟨k, -, bytes⟩ := formed.exists_beatBytes
  have some := formed.beats_pos
  have count : ((beatCount t.length : Nat) : Int) = t.beats := by
    unfold beatCount
    unfold beats at some ⊢
    omega
  have placed : t.burst.hasAddresses t.beatBytes (beatCount t.length) := by
    rw [bytes]
    exact Burst.hasAddresses_of_pos (Nat.two_pow_pos k)
  dsimp only [Model.transactor]
  unfold Model.read
  rw [width, formed.beatBytes?_eq (.inr rfl)]
  dsimp only
  rw [if_pos placed]
  refine ⟨_, rfl, ?_⟩
  have below : i < beatCount t.length := by omega
  rw [Store.readBeats, List.getElem?_map, List.getElem?_range below, Option.map_some, count]
  rfl

/-! ## Verdicts -/

/-- The message of a failure tells the first beat that differs, its values at the width of the bus
and the address that it is fetched at. -/
def TellsFirst (t : Transaction) (grammar : Grammar) (wanted seen : List Int) (message : String) :
    Prop :=
  ∃ (i : Nat) (expected observed address : Int) (place : String),
    DifferAt wanted seen i expected observed ∧ t.FetchesAt grammar.axiWidth i address ∧
      let hex (value : Int) := Number.formatHex value (grammar.width t.bus)
      message = place ++ ": " ++ (s!"mismatch at {addressText address} beat {i}: "
        ++ s!"expected {hex expected}, observed {hex observed}")

/-- What the check of a read comes to, and the counters after it. -/
inductive Scored (t : Transaction) (grammar : Grammar) (expected observed : Data)
    (before : Results) : Status → Results → Prop
  | pass : observed.Meets expected → Scored t grammar expected observed before .pass
      before.recordPass
  | fail {message : String} : ¬ observed.Meets expected →
      (∀ wanted seen, expected = .beats wanted → observed = .beats seen →
        seen.length = wanted.length → t.TellsFirst grammar wanted seen message) →
      Scored t grammar expected observed before .fail (before.recordFail message)

/-- The verdict on beats, of which there are as many expected as the burst has. -/
theorem WellFormed.scored_beats (formed : t.WellFormed grammar line) {wanted : List Int}
    (count : (wanted.length : Int) = t.beats) (seen : List Int) (before : Results) :
    t.Scored grammar (.beats wanted) (.beats seen) before
      (if (t.scoreBeats wanted seen).passed then .pass else .fail)
      (before.record (t.scoreBeats wanted seen)) := by
  by_cases same : seen.length = wanted.length
  · rcases eq_or_differAt same 0 with rfl | ⟨i, a, b, found, differ⟩
    · have passed : t.scoreBeats seen seen = .pass := by
        rw [scoreBeats, if_neg (not_not_intro rfl), firstDifference?_self]
      rw [passed]
      exact .pass (Data.meets_beats_iff.mpr rfl)
    · rw [Nat.zero_add] at found
      have failed : t.scoreBeats wanted seen = t.failure (.beat (t.beatAddress i) i a b) := by
        rw [scoreBeats, if_neg (not_not_intro same), found]
      have inside : i < wanted.length := (List.getElem?_eq_some_iff.mp differ.expects).1
      rw [failed]
      refine .fail (fun meets => ?_) fun expected observed wants sees _ => ?_
      · rw [Data.meets_beats_iff.mp meets] at differ
        exact differ.differ (Option.some.inj (differ.sees.symm.trans differ.expects))
      · cases wants
        cases sees
        refine ⟨i, a, b, t.beatAddress i,
          Failure.place ⟨t.protocol, t.line, t.width, .beat (t.beatAddress i) i a b⟩, differ,
          formed.fetchesAt_beatAddress (by omega), ?_⟩
        rw [← formed.width]
        rfl
  · have failed : t.scoreBeats wanted seen =
        t.failure (.beatCount t.address wanted.length seen.length) := by
      rw [scoreBeats, if_pos same]
    rw [failed]
    refine .fail (fun meets => same meets.1) fun expected observed wants sees equal => ?_
    cases wants
    cases sees
    exact absurd equal same

theorem scored_word (t : Transaction) (grammar : Grammar) (wanted seen : Int) (before : Results) :
    t.Scored grammar (.word wanted) (.word seen) before
      (if (t.scoreWord wanted seen).passed then .pass else .fail)
      (before.record (t.scoreWord wanted seen)) := by
  unfold scoreWord
  split
  · rename_i same
    exact .pass same
  · rename_i differ
    exact .fail differ fun expected observed wants => by cases wants

/-- A word is expected of a single AHB read only. -/
theorem ExpectationFits.single (fits : t.ExpectationFits) {word : Int}
    (expects : t.expected = some (.word word)) : t.operation = .read ∧ t.bus = .ahb := by
  unfold ExpectationFits at fits
  rw [expects] at fits
  split at fits
  · contradiction
  · exact ⟨by assumption, by assumption⟩
  · rename_i equal
    cases equal
  · rename_i equal
    cases equal
  · exact fits.elim

/-- Of any other read as many beats are expected as it has. -/
theorem ExpectationFits.several (fits : t.ExpectationFits) {words : List Int}
    (expects : t.expected = some (.beats words)) :
    ¬ (t.operation = .read ∧ t.bus = .ahb) ∧ (words.length : Int) = t.beats := by
  unfold ExpectationFits at fits
  rw [expects] at fits
  split at fits
  · contradiction
  · rename_i equal
    cases equal
  · rename_i single bus equal
    cases equal
    refine ⟨fun both => ?_, fits.1⟩
    cases both.2.symm.trans bus
  · rename_i burst equal
    cases equal
    refine ⟨fun both => ?_, fits.1⟩
    cases both.1.symm.trans burst
  · exact fits.elim

/-- Data of the shape that a transactor answers a read with: a word if it is a single one on AHB,
else beats. -/
def Answers (t : Transaction) : Data → Prop
  | .word _ => t.operation = .read ∧ t.bus = .ahb
  | .beats _ => ¬ (t.operation = .read ∧ t.bus = .ahb)

/-- A read that expects something has a verdict on every answer of its shape. -/
theorem WellFormed.exists_scored (formed : t.WellFormed grammar line) {expected observed : Data}
    (expects : t.expected = some expected) (answers : t.Answers observed) (before : Results) :
    ∃ verdict, t.score observed = some verdict ∧ t.Scored grammar expected observed before
      (if verdict.passed then .pass else .fail) (before.record verdict) := by
  unfold score
  rw [expects]
  cases expected with
  | word wanted =>
    have single := formed.expectation.single expects
    cases observed with
    | word seen => exact ⟨_, rfl, t.scored_word grammar wanted seen before⟩
    | beats seen => exact absurd single answers
  | beats wanted =>
    obtain ⟨several, count⟩ := formed.expectation.several expects
    cases observed with
    | word seen => exact absurd answers several
    | beats seen => exact ⟨_, rfl, formed.scored_beats count seen before⟩

end Transaction

namespace Engine

open Run

variable {σ : Type} {e : Engine σ} {t : Transaction} {s m : RunState σ}

/-! ## Reads -/

/-- A read that is carried out gives data of its shape. -/
theorem exists_answers_of_dispatch (reads : t.isRead) {observed : Option Data}
    (dispatched : e.dispatch t s = .ok observed m) :
    ∃ data, observed = some data ∧ t.Answers data := by
  unfold dispatch at dispatched
  obtain ⟨transactor, _, -, ended⟩ := bind_ok_iff.mp dispatched
  cases operation : t.operation with
  | read =>
    cases bus : t.bus with
    | ahb =>
      simp only [operation, bus] at ended
      obtain ⟨word, -, rfl, -⟩ := ask_map_ok_iff.mp ended
      exact ⟨_, rfl, operation, bus⟩
    | axi =>
      simp only [operation, bus] at ended
      obtain ⟨beats, -, rfl, -⟩ := ask_map_ok_iff.mp ended
      refine ⟨_, rfl, fun both => ?_⟩
      cases both.2.symm.trans bus
  | burstRead =>
    simp only [operation] at ended
    obtain ⟨beats, -, rfl, -⟩ := ask_map_ok_iff.mp ended
    refine ⟨_, rfl, fun both => ?_⟩
    cases both.1.symm.trans operation
  | _ =>
    rw [Transaction.isRead, operation] at reads
    cases reads

/-- The check of a read that expects nothing counts nothing. -/
theorem exists_check_of_plain (plain : t.expected = none) (observed : Data) (s : RunState σ) :
    ∃ status, status ≠ .pass ∧ status ≠ .fail ∧ check t observed s = .ok status s := by
  cases mismatch : t.mismatch with
  | some found =>
    have refused : t.mismatch.isSome := by rw [mismatch, Option.isSome_some]
    exact ⟨.unscored, by decide, by decide, check_of_mismatch refused observed s⟩
  | none =>
    refine ⟨.done, by decide, by decide, ?_⟩
    unfold check Transaction.score
    rw [mismatch, plain]
    rfl

theorem exists_ends_refuseMismatch (t : Transaction) (s : RunState σ) :
    ∃ r, Ends (refuseMismatch t) s r s := by
  unfold refuseMismatch
  cases t.mismatch with
  | none => exact ⟨.ok (), rfl⟩
  | some found => exact ⟨.error _, rfl⟩

/-- A read without an expectation is not scored, whatever its end. Any other one is traced with the
status of its check, which is counted once. -/
theorem read_scored {text : String} {line : Option Int} {observed : Option Data}
    (parsed : e.parse text line = .ok (.transaction t)) (reads : t.isRead)
    (dispatched : e.dispatch t s = .ok observed m) :
    ∃ data, observed = some data ∧ t.Answers data ∧
      (t.expected = none → ∃ r u, Ends (e.transaction t) s r u ∧ u.results = s.results ∧
        ∃ status, status ≠ .pass ∧ status ≠ .fail ∧
          u.traces = s.traces.push (.ofTransaction t data status)) ∧
      ∀ expected, t.expected = some expected → ∃ status u, e.transaction t s = .ok () u ∧
        u.traces = s.traces.push (.ofTransaction t data status) ∧
        t.Scored e.grammar expected data s.results status u.results := by
  have formed : t.WellFormed e.grammar line := Grammar.wellFormed_of_parse parsed
  obtain ⟨data, rfl, answers⟩ := exists_answers_of_dispatch reads dispatched
  obtain ⟨results, traces⟩ := ((keeps_dispatch t) s).1 _ _ dispatched
  -- Behind the bus there is nothing but the check, the record and the refusal.
  have rest {status : Status} {n : RunState σ} (checked : check t data m = .ok status n) :
      ∃ log, e.transaction t s = refuseMismatch t
        { n with traces := n.traces.push (.ofTransaction t data status), log } := by
    obtain ⟨log, emitted⟩ := exists_emit_apply (.ofTransaction t data status) n
    have concluded : conclude t (some data) m = .ok () _ := (bind_apply checked).trans emitted
    rw [transaction_eq, bind_apply dispatched, bind_apply concluded]
    exact ⟨log, rfl⟩
  refine ⟨data, rfl, answers, fun plain => ?plain, fun expected expects => ?expects⟩
  case plain =>
    obtain ⟨status, unpassed, unfailed, checked⟩ := exists_check_of_plain plain data m
    obtain ⟨log, ended⟩ := rest checked
    obtain ⟨r, refused⟩ := exists_ends_refuseMismatch t
      { m with traces := m.traces.push (.ofTransaction t data status), log }
    refine ⟨r, _, (ends_congr ended).mpr refused, results, status, unpassed, unfailed, ?_⟩
    rw [← traces]
  case expects =>
    have compared : t.mismatch = none := by
      cases mismatch : t.mismatch with
      | none => rfl
      | some found =>
        have none := (formed.mismatch (by rw [mismatch]; rfl)).1
        cases none.symm.trans expects
    obtain ⟨verdict, scored, settled⟩ := formed.exists_scored expects answers m.results
    obtain ⟨log, entered⟩ := exists_enter_apply verdict m
    have checked : check t data m = .ok (if verdict.passed then .pass else .fail)
        { m with results := m.results.record verdict, log } := by
      unfold check
      rw [compared, scored]
      exact bind_apply entered
    obtain ⟨_, ended⟩ := rest checked
    rw [refuseMismatch, compared] at ended
    refine ⟨if verdict.passed then .pass else .fail, _, ended, ?_, ?_⟩
    · rw [← traces]
    · rw [← results]
      exact settled

/-- The second beat of a wrapping burst is not what was expected. -/
theorem read_scored_of_wrapping_burst :
    let e : Engine Recording.World := { bench := { axi := some Recording.axi } }
    let s : RunState Recording.World := { world := { axi := { answers := [.beats [1, 5]] } } }
    ∃ t u, e.parse "AXI BURST_READ 0x18 WRAP 1 0x1 0x2" (some 3) = .ok (.transaction t) ∧
      e.transaction t s = .ok () u ∧ u.results.total = 1 ∧ u.results.failed = 1 ∧
      u.traces = #[.ofTransaction t (Data.beats [1, 5]) .fail] ∧
      t.TellsFirst e.grammar [1, 2] [1, 5] u.results.lastError := by
  intro e s
  let t : Transaction := {
    operation := .burstRead, address := 0x18, burst := .axi .wrap, width := 64, length := 1
    expected := some (.beats [1, 2]), line := some 3 }
  have parsed : e.parse "AXI BURST_READ 0x18 WRAP 1 0x1 0x2" (some 3) = .ok (.transaction t) := by
    decide +kernel
  have dispatched : e.dispatch t s = .ok (some (.beats [1, 5])) _ := rfl
  obtain ⟨data, observed, -, -, scored⟩ := read_scored parsed rfl dispatched
  obtain ⟨status, u, ended, traces, settled⟩ := scored _ rfl
  cases observed
  generalize counted : u.results = results at settled
  cases settled with
  | pass meets =>
    have equal := Data.meets_beats_iff.mp meets
    exact absurd equal (by decide)
  | @fail message differ tells =>
    refine ⟨t, u, parsed, ended, congrArg (·.total) counted, congrArg (·.failed) counted, traces,
      ?_⟩
    rw [counted]
    exact tells _ _ rfl rfl rfl

end Engine

end BusScript
