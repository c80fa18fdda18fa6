import BusScript.Proofs.Bench.Model
import BusScript.Proofs.Command.Hexadecimal
import BusScript.Proofs.Run.Calls
import BusScript.Proofs.Run.Execution
import BusScript.Proofs.Run.Kept
import BusScript.Proofs.Run.OnModel

/-!
# Traced values read back

A record of a bus command shows its values as hexadecimal texts. On the memory model every value
fits the data width of its record, whatever was written or preloaded before, since a store holds
bytes; so its text has one digit for every four bits, and is read back as the value. The record has
a value for every beat that was moved (`Engine.traced_values_read_back`).
-/

namespace BusScript

/-! ## Records -/

/-- A text shows a value of so many bits, and is read back as it. -/
structure Shows (width : Nat) (value : Int) (text : String) : Prop where
  fits : Fits width value
  written : IsWrittenOut (width / 4) text
  read : ∃ n : Nat, parseUnsigned text width = .ok n ∧ (n : Int) = value

/-- A value of a field of whole digits is shown by its digits. -/
theorem shows_formatHex {width : Nat} {value : Int} (some : 0 < width) (whole : width % 4 = 0)
    (fits : Fits width value) : Shows width value (Number.formatHex value width) := by
  obtain ⟨n, rfl⟩ := Int.eq_ofNat_of_zero_le fits.1
  have below : n < 2 ^ width := by exact_mod_cast fits.2
  refine ⟨fits, isWrittenOut_formatHex (by omega) ?_, n, parseUnsigned_formatHex some whole below,
    rfl⟩
  have bits : width = 4 * (width / 4) := by omega
  rwa [bits, Nat.pow_mul] at below

namespace TraceRecord

/-- The command moves a beat of data for every beat of its length. -/
def MovesBeats (bus : Bus) (record : TraceRecord) : Prop :=
  record.operation = some Operation.burstWrite.name ∨
    record.operation = some Operation.burstRead.name ∨
      record.operation = some Operation.read.name ∧ bus = .axi

/-- The record of a command for a bus that is so many bits wide: its values are shown in its
exported fields by texts that are read back, and there is one for every beat that was moved. -/
structure ReadsBack (bus : Bus) (bits : Nat) (record : TraceRecord) : Prop where
  protocol : record.protocol = some (Protocol.bus bus).name
  width : record.width = bits
  data : ∃ texts, record.fields.lookup "data" = some (.texts texts) ∧
    List.Forall₂ (Shows bits) record.data texts
  expected : ∀ values, record.expected = some values →
    ∃ texts, record.fields.lookup "expected" = some (.texts texts) ∧
      List.Forall₂ (Shows bits) values texts
  count : ∃ length, record.length = some length ∧
    (record.MovesBeats bus → (record.data.length : Int) = length + 1) ∧
    (¬record.MovesBeats bus → record.data.length = 1)

/-- A wait or a preload, which moves no data over a bus. -/
def OffBus (record : TraceRecord) : Prop :=
  record.protocol = some Protocol.wait.name ∨ record.protocol = some Protocol.preload.name

end TraceRecord

theorem Grammar.width_pos (grammar : Grammar) (bus : Bus) :
    0 < grammar.width bus ∧ grammar.width bus % 4 = 0 := by
  unfold width
  cases bus with
  | ahb =>
    dsimp only
    decide
  | axi => cases grammar.axiWidth <;> decide

/-- The values of a record that fit its width are shown and read back. -/
theorem TraceRecord.forall₂_shows {record : TraceRecord} {grammar : Grammar} {bus : Bus}
    (width : record.width = grammar.width bus) {values : List Int}
    (fit : ∀ value ∈ values, Fits (grammar.width bus) value) :
    List.Forall₂ (Shows (grammar.width bus)) values (values.map record.hex) := by
  obtain ⟨some, whole⟩ := grammar.width_pos bus
  rw [List.forall₂_map_right_iff, List.forall₂_same]
  intro value member
  rw [TraceRecord.hex, width]
  exact shows_formatHex some whole (fit value member)

/-! ## Values of the model -/

namespace Model

variable {setup : Setup} {world : World}

/-- What is read are as many numbers as beats, each made of the bytes of a beat. -/
theorem fits_of_read {burst : Burst} {address length : Int} {shape : Shape} {bytes : Int}
    {words : List Int} (size : burst.beatBytes? setup.axiWidth shape = some bytes)
    (done : (read setup burst address shape length world).result = .ok words) :
    words.length = beatCount length ∧ ∀ word ∈ words, Fits (8 * bytes.toNat) word := by
  refine ⟨length_of_read done, ?_⟩
  unfold read at done
  rw [size] at done
  dsimp only at done
  split at done
  · cases done
    intro word member
    obtain ⟨i, -, rfl⟩ := List.mem_map.mp member
    have below := Store.read_lt (tick setup burst.bus (length + 1) world).1.shared
      (beatAddress burst.addressing address i bytes (beatCount length)) bytes.toNat
    refine ⟨Int.natCast_nonneg _, ?_⟩
    rw [pow_mul]
    exact_mod_cast below
  · cases done

end Model

/-! ## Transactions -/

theorem Operation.name_inj {a b : Operation} : a.name = b.name ↔ a = b := by
  cases a <;> cases b <;> decide

namespace Transaction

variable {t : Transaction} {grammar : Grammar} {line : Option Int}

/-- The words that a transaction moved fit the bus: a single write has one, and every other
transaction one for each beat. -/
structure Moved (t : Transaction) (width : Nat) (words : List Int) : Prop where
  fits : ∀ word ∈ words, Fits width word
  count : (words.length : Int) = if t.operation = .write then 1 else t.beats

theorem WellFormed.toNat_width (formed : t.WellFormed grammar line) :
    t.width.toNat = grammar.width t.bus := by
  rw [formed.width, Int.toNat_natCast]

/-- A write moves what it brings. -/
theorem WellFormed.moved_payload (formed : t.WellFormed grammar line) (writes : ¬t.isRead) :
    t.Moved (grammar.width t.bus) ((t.payload.map Data.toList).getD []) := by
  have payload := formed.payload
  unfold PayloadFits at payload
  rw [formed.toNat_width] at payload
  unfold isRead at writes
  split at payload
  · rename_i operation given
    refine ⟨fun word member => ?_, ?_⟩
    · rw [given] at member
      simp only [Option.map_some, Option.getD_some, Data.toList, List.mem_singleton] at member
      rwa [member]
    · rw [given, operation]
      rfl
  · rename_i operation given
    rw [given]
    exact ⟨payload.2, by rw [operation, if_neg (by decide)]; exact payload.1⟩
  · rename_i operation given
    simp [operation] at writes
  · rename_i operation given
    simp [operation] at writes
  · exact payload.elim

/-- Words that are expected fit the bus. -/
theorem WellFormed.fits_expected (formed : t.WellFormed grammar line) {words : Data}
    (expected : t.expected = some words) :
    ∀ word ∈ words.toList, Fits (grammar.width t.bus) word := by
  have expectation := formed.expectation
  unfold ExpectationFits at expectation
  rw [formed.toNat_width, expected] at expectation
  intro word member
  split at expectation
  · rename_i none
    cases none
  · rename_i value _ _ given
    cases given
    rwa [List.mem_singleton.mp member]
  · rename_i given
    cases given
    exact expectation.2 word member
  · rename_i given
    cases given
    exact expectation.2 word member
  · exact expectation.elim

/-- The bytes of a beat are no wider than the bus. -/
theorem WellFormed.beatBytes_le (formed : t.WellFormed grammar line) :
    8 * t.beatBytes.toNat ≤ grammar.width t.bus := by
  have width := formed.width
  unfold beatBytes
  cases sized : t.size with
  | some size =>
    have bus : t.bus = .ahb := formed.size.mp (by rw [sized, Option.isSome_some])
    rw [bus, Grammar.width]
    dsimp only
    cases size <;> decide
  | none =>
    dsimp only
    omega

open Model in
/-- A read on the model moves words of its store. -/
theorem WellFormed.moved_of_read (formed : t.WellFormed grammar line) (reads : t.isRead)
    {setup : Setup} (width : setup.axiWidth = grammar.axiWidth.bits) {world : World}
    {shape : Shape} (given : shape = t.shape ∨ shape = .size t.size) {words : List Int}
    (done : (read setup t.burst t.address shape t.length world).result = .ok words) :
    t.Moved (grammar.width t.bus) words := by
  have size := formed.beatBytes?_eq given
  rw [← width] at size
  obtain ⟨count, fit⟩ := fits_of_read size done
  have some := formed.beats_pos
  refine ⟨fun word member => ?_, ?_⟩
  · obtain ⟨nonneg, below⟩ := fit word member
    refine ⟨nonneg, below.trans_le ?_⟩
    exact pow_le_pow_right₀ (by decide) formed.beatBytes_le
  · have noWrite : t.operation ≠ .write := by
      intro write
      rw [isRead, write] at reads
      cases reads
    rw [if_neg noWrite, count, beatCount]
    unfold beats at some ⊢
    omega

end Transaction

namespace Engine

open Run Model

variable {setup : Setup} {e : Engine World}

/-- The buses of the engine that are attached are those of the memory model, as wide as its
configuration says. The clock and the loader may be any. -/
structure OnStore (setup : Setup) (e : Engine World) : Prop where
  transactor : ∀ {bus transactor}, e.bench.transactor? bus = some transactor →
    transactor = Model.transactor setup
  width : setup.axiWidth = e.config.axiWidth.bits

theorem OnModel.onStore (model : e.OnModel setup) : e.OnStore setup where
  transactor := model.transactor_eq
  width := model.width

/-- Words travel through the model as they fit the bus. -/
theorem OnStore.moved_of_dispatch (model : e.OnStore setup) {t : Transaction} {line : Option Int}
    (formed : t.WellFormed e.grammar line) {observed : Option Data} {s m : RunState World}
    (ended : e.dispatch t s = .ok observed m) :
    t.Moved (e.grammar.width t.bus) (((observed.or t.payload).map Data.toList).getD []) := by
  have writes (operation : t.operation = .write ∨ t.operation = .burstWrite) : ¬t.isRead := by
    unfold Transaction.isRead
    rcases operation with single | burst
    · simp [single]
    · simp [burst]
  unfold dispatch at ended
  obtain ⟨transactor, _, chosen, ended⟩ := bind_ok_iff.mp ended
  obtain ⟨attached, rfl⟩ := transactor_ok_iff.mp chosen
  cases model.transactor attached
  cases operation : t.operation with
  | write =>
    simp only [operation] at ended
    obtain ⟨_, -, rfl, -⟩ := ask_map_ok_iff.mp ended
    exact formed.moved_payload (writes (.inl operation))
  | burstWrite =>
    simp only [operation] at ended
    obtain ⟨_, -, rfl, -⟩ := ask_map_ok_iff.mp ended
    exact formed.moved_payload (writes (.inr operation))
  | read =>
    have reads : t.isRead := by rw [Transaction.isRead, operation]; rfl
    cases bus : t.bus with
    | ahb =>
      simp only [operation, bus] at ended
      obtain ⟨word, done, rfl, -⟩ := ask_map_ok_iff.mp ended
      have length : t.length = 0 := by
        have one := formed.beats_eq_one bus (.inr operation)
        rw [Transaction.beats] at one
        omega
      have done := read_of_transactor_read done
      rw [← length] at done
      rw [← bus]
      exact formed.moved_of_read reads model.width (.inl rfl) done
    | axi =>
      simp only [operation, bus] at ended
      obtain ⟨words, done, rfl, -⟩ := ask_map_ok_iff.mp ended
      rw [← bus]
      exact formed.moved_of_read reads model.width (.inr rfl) done
  | burstRead =>
    have reads : t.isRead := by rw [Transaction.isRead, operation]; rfl
    simp only [operation] at ended
    obtain ⟨words, done, rfl, -⟩ := ask_map_ok_iff.mp ended
    exact formed.moved_of_read reads model.width (.inr rfl) done
  | poll =>
    have payload := formed.payload
    rw [Transaction.PayloadFits, operation] at payload
    exact payload.elim

/-! ## Records of transactions and polls -/

theorem movesBeats_ofTransaction {t : Transaction} {data : Option Data} {status : Status} :
    (TraceRecord.ofTransaction t data status).MovesBeats t.bus ↔
      t.operation = .burstWrite ∨ t.operation = .burstRead ∨
        t.operation = .read ∧ t.bus = .axi := by
  simp only [TraceRecord.MovesBeats, TraceRecord.ofTransaction, Option.some.injEq,
    Operation.name_inj]

/-- A transaction that moved words is traced with them. -/
theorem readsBack_ofTransaction {t : Transaction} {grammar : Grammar} {line : Option Int}
    (formed : t.WellFormed grammar line) {data : Option Data} (status : Status)
    (moved : t.Moved (grammar.width t.bus) ((data.map Data.toList).getD [])) :
    (TraceRecord.ofTransaction t data status).ReadsBack t.bus (grammar.width t.bus) := by
  have width : (TraceRecord.ofTransaction t data status).width = grammar.width t.bus :=
    formed.width
  refine ⟨?_, width, ⟨_, rfl, TraceRecord.forall₂_shows width moved.fits⟩, ?_, t.length, rfl,
    ?_, ?_⟩
  · rw [← formed.protocol]
    rfl
  · intro values expected
    obtain ⟨words, given, rfl⟩ := Option.map_eq_some_iff.mp expected
    refine ⟨_, ?_, TraceRecord.forall₂_shows width (formed.fits_expected given)⟩
    simp [TraceRecord.fields, expected, List.lookup_cons]
  · intro beats
    have noWrite : t.operation ≠ .write := by
      intro write
      simp [movesBeats_ofTransaction, write] at beats
    have count := moved.count
    rw [if_neg noWrite] at count
    exact count
  · intro single
    rw [movesBeats_ofTransaction] at single
    have count := moved.count
    by_cases write : t.operation = .write
    · rw [if_pos write] at count
      exact_mod_cast count
    · have word : t.operation = .read ∧ t.bus = .ahb := by
        have payload := formed.payload
        unfold Transaction.PayloadFits at payload
        cases operation : t.operation <;> cases bus : t.bus <;> simp_all
      rw [if_neg write, formed.beats_eq_one word.2 (.inr word.1)] at count
      exact_mod_cast count

/-- A poll that observed a word of the bus is traced with it. -/
theorem readsBack_ofPoll {p : Poll} {grammar : Grammar} {line : Option Int}
    (formed : p.WellFormed grammar line) {word : Int} (fits : Fits (grammar.width p.bus) word)
    (matched : Bool) (reads : Int) :
    (TraceRecord.ofPoll p (some word) matched reads).ReadsBack p.bus (grammar.width p.bus) := by
  have width : (TraceRecord.ofPoll p (some word) matched reads).width = grammar.width p.bus :=
    formed.width
  have still : ¬(TraceRecord.ofPoll p (some word) matched reads).MovesBeats p.bus := by
    simp [TraceRecord.MovesBeats, TraceRecord.ofPoll, Operation.name_inj]
  refine ⟨?_, width, ⟨_, rfl, TraceRecord.forall₂_shows width ?_⟩, ?_, 0, rfl,
    fun beats => absurd beats still, fun _ => rfl⟩
  · rw [← formed.protocol]
    rfl
  · intro value member
    rwa [List.mem_singleton.mp member]
  · rintro _ ⟨⟩
    refine ⟨_, rfl, TraceRecord.forall₂_shows width fun value member => ?_⟩
    rw [List.mem_singleton.mp member]
    exact formed.expected

/-! ## Records that parts add -/

/-- A part of a run adds records with a property to the trace. -/
def Adds {σ : Type} (P : TraceRecord → Prop) (s t : RunState σ) : Prop :=
  ∃ emitted, t.traces.toList = s.traces.toList ++ emitted ∧ ∀ record ∈ emitted, P record

section

variable {σ : Type} {P : TraceRecord → Prop}

theorem adds_of_traces_eq {s t : RunState σ} (same : t.traces = s.traces) : Adds P s t :=
  ⟨[], by rw [same, List.append_nil], by simp⟩

instance : Std.Refl (@Adds σ P) where
  refl _ := adds_of_traces_eq rfl

instance : IsTrans _ (@Adds σ P) where
  trans _ _ _ first later := by
    obtain ⟨emitted, traces, each⟩ := first
    obtain ⟨others, more, rest⟩ := later
    refine ⟨emitted ++ others, by rw [more, traces, List.append_assoc], fun record member => ?_⟩
    rcases List.mem_append.mp member with member | member
    · exact each record member
    · exact rest record member

theorem adds_push {s t : RunState σ} {record : TraceRecord} (holds : P record)
    (traces : t.traces = s.traces.push record) : Adds P s t :=
  ⟨[record], by rw [traces, Array.toList_push], by simpa using holds⟩

theorem adds_of_uncounted {s t : RunState σ} (uncounted : Uncounted s t) : Adds P s t :=
  adds_of_traces_eq uncounted.2

theorem keeps_emit_adds {record : TraceRecord} (holds : P record) :
    Keeps (Adds P) (emit record : Run σ Unit) := by
  refine keeps_iff.mpr fun s r t ended => ?_
  cases r with
  | ok _ =>
    obtain ⟨log, rfl⟩ := exists_log_of_emit ended
    exact adds_push holds rfl
  | error fault => exact absurd ended emit_ne_error

theorem keeps_enter_adds {verdict : Verdict} :
    Keeps (Adds P) (enter verdict : Run σ Unit) := by
  refine keeps_iff.mpr fun s r t ended => ?_
  cases r with
  | ok _ =>
    obtain ⟨log, rfl⟩ := exists_log_of_enter ended
    exact adds_of_traces_eq rfl
  | error fault => exact absurd ended enter_ne_error

theorem keeps_conclude_adds {t : Transaction} {observed : Option Data}
    (holds : ∀ status, P (.ofTransaction t (observed.or t.payload) status)) :
    Keeps (Adds P) (conclude t observed : Run σ Unit) := by
  refine keeps_iff.mpr fun s r u ended => ?_
  obtain ⟨status, results, log, concluded⟩ := exists_conclude_apply t observed s
  have same : Ends (conclude t observed) s (.ok ()) _ := concluded
  rw [(ended.unique same).2]
  exact adds_push (holds status) rfl

theorem keeps_settle_adds {e : Engine σ} : Keeps (Adds P) e.settle :=
  keeps_iff.mpr fun _ _ _ ended => adds_of_traces_eq (uncounted_or_timeout_of_settle ended).2

theorem keeps_request_adds (c : Coordinator σ) (p : Preload) : Keeps (Adds P) (c.request p) :=
  keeps_iff.mpr fun _ _ _ ended =>
    adds_of_traces_eq (Coordinator.requested_of_request ended).uncounted_or_timeout.2

end

/-! ## Parts of runs -/

/-- A record that a run may add: of a command off the buses, or one whose values read back. -/
def Traced (e : Engine World) (record : TraceRecord) : Prop :=
  record.OffBus ∨ ∃ bus, record.ReadsBack bus (e.grammar.width bus)

namespace OnStore

theorem fits_of_readWord (model : e.OnStore setup) {p : Poll} {word : Int} {s m : RunState World}
    (ended : e.readWord p s = .ok word m) : Fits (e.grammar.width p.bus) word := by
  unfold readWord at ended
  obtain ⟨transactor, _, chosen, ended⟩ := bind_ok_iff.mp ended
  obtain ⟨attached, rfl⟩ := transactor_ok_iff.mp chosen
  cases model.transactor attached
  cases bus : p.bus with
  | ahb =>
    rw [bus] at ended
    obtain ⟨answered, -⟩ := ask_ok_iff.mp ended
    obtain ⟨-, fit⟩ := fits_of_read rfl (read_of_transactor_read answered)
    exact fit word List.mem_cons_self
  | axi =>
    rw [bus] at ended
    obtain ⟨words, _, asked, ended⟩ := bind_ok_iff.mp ended
    obtain ⟨answered, -⟩ := ask_ok_iff.mp asked
    obtain ⟨-, fit⟩ := fits_of_read rfl answered
    cases words with
    | nil => exact absurd ended throw_ne_ok
    | cons first rest =>
      obtain ⟨rfl, -⟩ := pure_ok_iff.mp ended
      have bits : 8 * (setup.axiWidth / 8).toNat = e.grammar.width .axi := by
        rw [model.width, Grammar.width, grammar]
        cases e.config.axiWidth <;> rfl
      rw [← bits]
      exact fit first List.mem_cons_self

/-- A poll that may read observes a word of the bus. -/
theorem fits_of_pollReads (model : e.OnStore setup) {p : Poll} {sofar outcome : PollOutcome}
    {remaining : Nat} {s m : RunState World}
    (ended : e.pollReads p sofar remaining s = .ok outcome m)
    (some : 1 ≤ remaining ∨ ∃ word, sofar.observed = .some word ∧
      Fits (e.grammar.width p.bus) word) :
    ∃ word, outcome.observed = .some word ∧ Fits (e.grammar.width p.bus) word := by
  induction remaining generalizing s sofar with
  | zero =>
    obtain ⟨rfl, -⟩ := pure_ok_iff.mp ended
    exact some.resolve_left (by omega)
  | succ remaining ih =>
    unfold pollReads at ended
    obtain ⟨word, _, read, ended⟩ := bind_ok_iff.mp ended
    have fits := model.fits_of_readWord read
    dsimp only at ended
    split at ended
    · obtain ⟨rfl, -⟩ := pure_ok_iff.mp ended
      exact ⟨word, rfl, fits⟩
    · split at ended
      · obtain ⟨_, _, -, ended⟩ := bind_ok_iff.mp ended
        exact ih ended (.inr ⟨word, rfl, fits⟩)
      · exact ih ended (.inr ⟨word, rfl, fits⟩)

theorem keeps_execute (model : e.OnStore setup) (limit : 1 ≤ e.config.maxPolls) {action : Action}
    {line : Option Int} (formed : action.WellFormed e.grammar line) :
    Keeps (Adds (Traced e)) (e.execute action) := by
  cases action with
  | transaction t =>
    have formed : t.WellFormed e.grammar line := formed
    show Keeps _ (e.transaction t)
    rw [transaction_eq]
    have dispatched : Keeps (Adds (Traced e)) (e.dispatch t) :=
      (keeps_dispatch t).mono adds_of_uncounted
    refine dispatched.bind_of
      (fun s observed m ended => model.moved_of_dispatch formed ended) fun observed moved => ?_
    refine (keeps_conclude_adds fun status =>
      .inr ⟨t.bus, readsBack_ofTransaction formed status moved⟩).bind fun _ => ?_
    exact (keeps_refuseMismatch t).mono fun same => adds_of_traces_eq (by rw [same])
  | poll p =>
    have formed : p.WellFormed e.grammar line := formed
    obtain ⟨reads, stated, positive⟩ :=
      formed.maxPolls ⟨e.config.maxPolls, rfl, by exact_mod_cast limit⟩
    have some : 1 ≤ (p.maxPolls.getD 0).toNat := by
      rw [stated, Option.getD_some]
      omega
    have polled : Keeps (Adds (Traced e)) (e.pollReads p {} (p.maxPolls.getD 0).toNat) :=
      (readsKeep_uncounted.pollReads p {} _).mono adds_of_uncounted
    refine polled.bind_of
      (fun s outcome m ended => model.fits_of_pollReads ended (.inl some)) fun outcome found => ?_
    obtain ⟨word, observed, fits⟩ := found
    rw [observed]
    exact keeps_enter_adds.bind fun _ =>
      keeps_emit_adds (.inr ⟨p.bus, readsBack_ofPoll formed fits _ _⟩)
  | wait w =>
    have waited : Keeps (Adds (Traced e)) (e.waitCycles w.cycles w.line) :=
      (readsKeep_uncounted.waitCycles w.cycles w.line).mono adds_of_uncounted
    exact waited.bind fun _ => keeps_emit_adds (.inl (.inl rfl))
  | preload p =>
    show Keeps _ (e.preload p)
    unfold preload
    cases e.coordinator? with
    | none => exact keeps_throw
    | some coordinator =>
      exact (keeps_request_adds coordinator p).bind fun completed =>
        keeps_emit_adds (.inl (.inr rfl))

end OnStore

/-! ## Runs -/

open Script

/-- Every record that a run on the memory model adds for a bus command, whatever the run comes to,
has values that fit the data width of its bus. The text of each in the exported fields has one digit
for every four bits and is read back as the value. There is a value for every beat of a burst or of
an AXI read, and one for any other command. -/
theorem traced_values_read_back (model : e.OnStore setup) (limit : 1 ≤ e.config.maxPolls)
    {tree : Tree} {source : Source} {s t : RunState World} {result : Except RunFault Results}
    (ended : Ends (e.run tree source) s result t) :
    ∃ emitted, t.traces.toList = s.traces.toList ++ emitted ∧
      ∀ record ∈ emitted, record.OffBus ∨ ∃ bus, record.ReadsBack bus (e.grammar.width bus) := by
  have kept : Keeps (Adds (Traced e)) (e.run tree source) := by
    refine keeps_run (fun _ _ _ => adds_of_traces_eq rfl) tree source (fun text line => ?_)
      keeps_settle_adds
    exact keeps_perform fun action parsed =>
      model.keeps_execute limit (Grammar.wellFormed_of_parse parsed)
  exact keeps_iff.mp kept s result t ended

/-- An image with a negative word is preloaded, and then read over AXI and polled over AHB. -/
theorem traced_values_read_back_of_preload :
    let files : Tree := ⟨[(["a.hex"], .file (Text.Utf8.encode "-1 123456789".toList))]⟩
    let engine := CommandLine.engine files ⟨0, ["script"]⟩ {}
    let script := Source.ofText
      "PRELOAD top.ram a.hex\nWAIT 1\nAXI READ 0x0 INCR 1\nAHB POLL 0x4 0x23456789"
    ∃ results final, engine.run {} script { world := {} } = .ok results final ∧
      final.traces.toList.map (·.data) = [[], [], [0x23456789FFFFFFFF, 0], [0x23456789]] ∧
      ∀ record ∈ final.traces.toList,
        record.OffBus ∨ ∃ bus, record.ReadsBack bus (engine.grammar.width bus) := by
  intro files engine script
  have ends : (match engine.run {} script { world := {} } with
      | .ok _ final =>
        final.traces.toList.map (·.data) == [[], [], [0x23456789FFFFFFFF, 0], [0x23456789]]
      | .error _ _ => false) = true := by decide +kernel
  split at ends
  · rename_i results final ended
    have ended : Ends (engine.run {} script) { world := {} } (.ok results) final := ended
    obtain ⟨emitted, traces, each⟩ := traced_values_read_back
      (onModel_program files ⟨0, ["script"]⟩ {}).onStore (by decide) ended
    obtain rfl : emitted = final.traces.toList := traces.symm
    exact ⟨results, final, ended, eq_of_beq ends, each⟩
  · cases ends

end Engine

end BusScript
