import BusScript.CommandLine.Program
import BusScript.Proofs.Bench.Model
import BusScript.Proofs.Run.Complete

/-!
# Runs on the memory model

A run on the memory model is a sequence of stores and loads on one memory of bytes. Each line stores
what its write brings and nothing else (`Grammar.lineStores`), and each read observes what the lines
before it stored last.
-/

namespace BusScript

/-- The bytes that a numbered line stores. A line that asks for no write, or for nothing at all,
stores none. -/
def Grammar.lineStores (grammar : Grammar) (line : Nat × String) : List (Nat × UInt8) :=
  match grammar.parse line.2 (some line.1) with
  | .ok (.transaction t) => t.stores
  | _ => []

/-- The bytes that numbered lines store, in their order. -/
def Grammar.history (grammar : Grammar) (lines : List (Nat × String)) : List (Nat × UInt8) :=
  lines.flatMap grammar.lineStores

namespace Engine

open Run Store Model

/-- The engine drives the memory model, with transactors as wide as its configuration says. -/
structure OnModel (setup : Setup) (e : Engine World) : Prop where
  bench : e.bench = Model.bench setup
  width : setup.axiWidth = e.config.axiWidth.bits

/-- The engine of the program drives the memory model. -/
theorem onModel_program (tree : Tree) (script : Path) (config : Config) :
    OnModel
      { axiWidth := config.axiWidth.bits
        files := tree
        baseDir := some script.parent
        targetsShared := true }
      (CommandLine.engine tree script config) :=
  ⟨rfl, rfl⟩

variable {setup : Setup} {e : Engine World}

theorem OnModel.transactor_eq (model : e.OnModel setup) {bus : Bus} {transactor : Transactor World}
    (attached : e.bench.transactor? bus = some transactor) :
    transactor = Model.transactor setup := by
  rw [model.bench] at attached
  cases bus with
  | ahb => exact (Option.some.inj attached).symm
  | axi => exact (Option.some.inj attached).symm

theorem OnModel.complete (model : e.OnModel setup) : e.bench.Complete := by
  rw [model.bench]
  constructor
  case transactor =>
    intro bus
    cases bus with
    | ahb => exact Option.some_ne_none _
    | axi => exact Option.some_ne_none _
  case clock => exact Option.some_ne_none _
  case loader => exact Option.some_ne_none _

/-! ## Parts that store nothing -/

theorem OnModel.readsKeep (model : e.OnModel setup) : e.ReadsKeep (OnWorld (Stored [])) where
  read attached := by
    rw [model.transactor_eq attached]
    exact keeps_ask_onWorld fun world => stored_read _ _ _ 0
  readBurst attached := by
    rw [model.transactor_eq attached]
    exact keeps_ask_onWorld fun world => stored_read _ _ _ _
  clock attached := by
    rw [model.bench] at attached
    rw [← Option.some.inj attached]
    exact keeps_ask_onWorld fun world => stored_passCycles setup world _

theorem OnModel.keeps_poll (model : e.OnModel setup) (p : Poll) :
    Keeps (OnWorld (Stored [])) (e.poll p) := by
  refine (model.readsKeep.pollReads p {} _).bind fun outcome => ?_
  exact keeps_enter_onWorld.bind fun _ => keeps_emit_onWorld

theorem OnModel.keeps_wait (model : e.OnModel setup) (w : Wait) :
    Keeps (OnWorld (Stored [])) (e.wait w) :=
  (model.readsKeep.waitCycles w.cycles w.line).bind fun _ => keeps_emit_onWorld

theorem OnModel.keeps_settle (model : e.OnModel setup) :
    Keeps (OnWorld (Stored [])) e.settle := by
  unfold settle coordinator?
  rw [model.bench]
  refine (Coordinator.keeps_waitOutstanding _ fun handle world => ?_).bind fun _ => keeps_pure
  exact stored_waitForLoad setup world handle _

/-! ## Transactions -/

/-- What a transaction does to the model: it writes its words, or it reads and observes words. -/
theorem OnModel.dispatch_ok (model : e.OnModel setup) {t : Transaction} {line : Option Int}
    {observed : Option Data} {s m : RunState World} (formed : t.WellFormed e.grammar line)
    (ended : e.dispatch t s = .ok observed m) :
    ((t.operation = .write ∨ t.operation = .burstWrite) ∧
        (write setup t.burst t.address t.shape t.writtenWords s.world).result = .ok () ∧
        m.world = (write setup t.burst t.address t.shape t.writtenWords s.world).state) ∨
      (t.isRead ∧ ∃ shape data, (shape = t.shape ∨ shape = .size t.size) ∧ observed = some data ∧
        (read setup t.burst t.address shape t.length s.world).result = .ok data.toList ∧
        m.world = (read setup t.burst t.address shape t.length s.world).state) := by
  unfold dispatch at ended
  obtain ⟨transactor, _, chosen, ended⟩ := bind_ok_iff.mp ended
  obtain ⟨attached, rfl⟩ := transactor_ok_iff.mp chosen
  rw [model.transactor_eq attached] at ended
  cases operation : t.operation with
  | write =>
    left
    simp only [operation, transactor_write formed operation] at ended
    obtain ⟨_, done, -, rfl⟩ := ask_map_ok_iff.mp ended
    exact ⟨.inl rfl, done, rfl⟩
  | burstWrite =>
    left
    simp only [operation, transactor_writeBurst operation] at ended
    obtain ⟨_, done, -, rfl⟩ := ask_map_ok_iff.mp ended
    exact ⟨.inr rfl, done, rfl⟩
  | read =>
    right
    have reads : t.isRead := by rw [Transaction.isRead, operation]; rfl
    cases bus : t.bus with
    | ahb =>
      simp only [operation, bus] at ended
      obtain ⟨word, done, rfl, rfl⟩ := ask_map_ok_iff.mp ended
      have length : t.length = 0 := by
        have one := formed.beats_eq_one bus (.inr operation)
        rw [Transaction.beats] at one
        omega
      rw [length]
      exact ⟨reads, t.shape, .word word, .inl rfl, rfl, read_of_transactor_read done, rfl⟩
    | axi =>
      simp only [operation, bus] at ended
      obtain ⟨words, done, rfl, rfl⟩ := ask_map_ok_iff.mp ended
      exact ⟨reads, .size t.size, .beats words, .inr rfl, rfl, done, rfl⟩
  | burstRead =>
    right
    have reads : t.isRead := by rw [Transaction.isRead, operation]; rfl
    simp only [operation] at ended
    obtain ⟨words, done, rfl, rfl⟩ := ask_map_ok_iff.mp ended
    exact ⟨reads, .size t.size, .beats words, .inr rfl, rfl, done, rfl⟩
  | poll =>
    have payload := formed.payload
    rw [Transaction.PayloadFits, operation] at payload
    exact payload.elim

/-- A transaction that passes stores what its write brings. -/
theorem OnModel.stored_of_transaction (model : e.OnModel setup) {t : Transaction}
    {line : Option Int} {s u : RunState World} (formed : t.WellFormed e.grammar line)
    (passed : e.Passed (.transaction t) s u) : Stored t.stores s.world u.world := by
  obtain ⟨observed, m, status, dispatched, world, -⟩ :=
    dispatched_of_passed (model.complete.transactor t.bus) passed
  rw [world]
  rcases model.dispatch_ok formed dispatched with
    ⟨writes, done, after⟩ | ⟨reads, shape, data, -, -, -, after⟩
  · rw [after]
    exact stored_of_write formed model.width writes done
  · rw [after, Transaction.stores_eq_nil reads]
    exact stored_read t.burst t.address shape t.length

/-- A read that passes is traced with what was stored before. -/
theorem OnModel.observes_of_transaction (model : e.OnModel setup) {t : Transaction}
    {line : Option Int} {writes : List (Nat × UInt8)} {s u : RunState World}
    (formed : t.WellFormed e.grammar line) (reads : t.isRead) (idle : s.world.pending = [])
    (stored : s.world.shared = written {} writes) (passed : e.Passed (.transaction t) s u) :
    ∃ record, record.line = line ∧ u.traces = s.traces.push record ∧
      t.Observes writes record.data := by
  obtain ⟨observed, m, status, dispatched, -, traces⟩ :=
    dispatched_of_passed (model.complete.transactor t.bus) passed
  refine ⟨_, formed.line, traces, ?_⟩
  rcases model.dispatch_ok formed dispatched with
    ⟨single | burst, -, -⟩ | ⟨-, shape, data, given, rfl, done, -⟩
  · rw [Transaction.isRead, single] at reads
    cases reads
  · rw [Transaction.isRead, burst] at reads
    cases reads
  · exact observes_of_read formed model.width given idle stored done

/-! ## Lines -/

/-- The line asks for no preload. -/
def Loadless (e : Engine World) (line : Nat × String) : Prop :=
  ∀ p, e.parse line.2 (some line.1) ≠ .ok (.preload p)

theorem OnModel.stored_of_executeLine (model : e.OnModel setup) {line : Nat × String}
    {s t : RunState World} (loadless : e.Loadless line)
    (ended : e.executeLine line.2 (some line.1) s = .ok () t) :
    Stored (e.grammar.lineStores line) s.world t.world := by
  have quiet {x : Run World Unit} {u : RunState World} (keeps : Keeps (OnWorld (Stored [])) x)
      (passed : x s = .ok () u ∨ ∃ error, x s = .error (.script error) u) :
      Stored [] s.world u.world := by
    rcases passed with ended | ⟨error, ended⟩
    · exact (keeps s).1 _ _ ended
    · exact (keeps s).2 _ _ ended
  unfold Grammar.lineStores
  rcases passed_of_executeLine ended with
    ⟨⟨fault, refused⟩, world⟩ | ⟨action, u, parsed, passed, world, -⟩
  · have refused : e.grammar.parse line.2 (some line.1) = .error fault := refused
    rw [refused, world]
    exact .refl s.world
  · have parsed : e.grammar.parse line.2 (some line.1) = .ok action := parsed
    rw [parsed, world]
    cases action with
    | transaction t => exact model.stored_of_transaction (Grammar.wellFormed_of_parse parsed) passed
    | poll p => exact quiet (model.keeps_poll p) passed
    | wait w => exact quiet (model.keeps_wait w) passed
    | preload p => exact absurd parsed (loadless p)

theorem OnModel.observes_of_executeLine (model : e.OnModel setup) {number : Nat} {text : String}
    {t : Transaction} {writes : List (Nat × UInt8)} {s u : RunState World}
    (parsed : e.parse text (some number) = .ok (.transaction t)) (reads : t.isRead)
    (idle : s.world.pending = []) (stored : s.world.shared = written {} writes)
    (ended : e.executeLine text (some number) s = .ok () u) :
    ∃ record, record.line = some (number : Int) ∧ u.traces = s.traces.push record ∧
      t.Observes writes record.data := by
  rcases passed_of_executeLine ended with
    ⟨⟨fault, refused⟩, -⟩ | ⟨action, m, same, passed, -, traces⟩
  · rw [parsed] at refused
    cases refused
  · rw [parsed] at same
    cases same
    rw [traces]
    have formed := Grammar.wellFormed_of_parse parsed
    exact model.observes_of_transaction formed reads idle stored passed

/-- The lines of a script store, one after the other, what their writes bring. -/
theorem OnModel.stored_of_executeLines (model : e.OnModel setup) {lines : List (Nat × String)}
    {s t : RunState World} (loadless : ∀ line ∈ lines, e.Loadless line)
    (ended : e.executeLines lines s = .ok () t) :
    Stored (e.grammar.history lines) s.world t.world := by
  induction lines generalizing s with
  | nil =>
    obtain ⟨-, rfl⟩ := pure_ok_iff.mp ended
    exact .refl s.world
  | cons line lines ih =>
    obtain ⟨_, m, first, rest⟩ := bind_ok_iff.mp ended
    have one := model.stored_of_executeLine (loadless line List.mem_cons_self) first
    have others := ih (fun line member => loadless line (List.mem_cons_of_mem _ member)) rest
    rw [Grammar.history, List.flatMap_cons]
    exact one.append others

/-! ## Runs -/

open Script

/-- A run from an empty memory ends with the memory that the stores of its lines make, and each read
is traced with what the lines before it stored last. -/
theorem run_refines_memory (model : e.OnModel setup) {tree : Tree} {source : Source}
    {results : Results} {final : RunState World}
    (loadless : ∀ line ∈ (source.readAll tree).1, e.Loadless line)
    (ended : e.run tree source { world := {} } = .ok results final) :
    final.world.shared = written {} (e.grammar.history (source.readAll tree).1) ∧
      (∀ address, final.world.shared.byte address =
        (lastStored (e.grammar.history (source.readAll tree).1) (cell address)).getD 0) ∧
      ∀ before (number : Nat) text after t,
        (source.readAll tree).1 = before ++ (number, text) :: after →
        e.parse text (some number) = .ok (.transaction t) → t.isRead →
          ∃ record log m n, e.executeLines before { world := {}, log } = .ok () m ∧
            e.executeLine text (some number) m = .ok () n ∧
            n.traces = m.traces.push record ∧ n.traces.toList <+: final.traces.toList ∧
            record.line = some (number : Int) ∧
            t.Observes (e.grammar.history before) record.data := by
  obtain ⟨log, last, n, carried, world, traces, settled⟩ := executeLines_of_run ended
  have whole := model.stored_of_executeLines loadless carried
  have still : Stored [] last.world final.world ∧ final.traces = last.traces := by
    rcases settled with settled | rfl
    · rw [← world, ← traces]
      exact ⟨((model.keeps_settle) n).1 _ _ settled, (counted_of_settle settled).2⟩
    · rw [world, traces]
      exact ⟨.refl last.world, rfl⟩
  obtain ⟨-, shared⟩ := whole.append still.1 rfl
  rw [List.append_nil] at shared
  refine ⟨shared, fun address => ?_, ?_⟩
  · rw [shared]
    exact byte_written _ address
  · intro before number text after t split parsed reads
    rw [split] at carried loadless
    rw [executeLines_append] at carried
    obtain ⟨_, m, first, carried⟩ := bind_ok_iff.mp carried
    obtain ⟨_, n, line, rest⟩ := bind_ok_iff.mp carried
    have earlier := model.stored_of_executeLines
      (fun line member => loadless line (List.mem_append_left _ member)) first
    obtain ⟨idle, known⟩ := earlier rfl
    obtain ⟨record, numbered, traced, observes⟩ :=
      model.observes_of_executeLine parsed reads idle known line
    have kept := (grown_of_lines (lines_of_executeLines rest)).traces
    rw [← still.2] at kept
    exact ⟨record, log, m, n, first, line, traced, kept, numbered, observes⟩

/-- Two bytes are written on one bus, and seen in a word on the other. -/
theorem program_refines_memory :
    ∃ results final record, ∃ t : Transaction,
      (CommandLine.engine {} ⟨0, ["script"]⟩ {}).run {}
          (.ofText "AHB WRITE 0x12 0xAABB SINGLE HALFWORD\nAXI READ 0x10") { world := {} } =
        .ok results final ∧
      final.world.shared.byte 0x13 = 0xAA ∧ record ∈ final.traces.toList ∧
      record.line = some 2 ∧ t.address = 0x10 ∧
      t.Observes [(0x12, 0xBB), (0x13, 0xAA)] record.data := by
  have readable : (Source.readAll {}
      (.ofText "AHB WRITE 0x12 0xAABB SINGLE HALFWORD\nAXI READ 0x10")).1 =
      [(1, "AHB WRITE 0x12 0xAABB SINGLE HALFWORD"), (2, "AXI READ 0x10")] := by decide +kernel
  have write : (CommandLine.engine {} ⟨0, ["script"]⟩ {}).parse
      "AHB WRITE 0x12 0xAABB SINGLE HALFWORD" (some 1) = .ok (.transaction {
        operation := .write, address := 0x12, burst := .ahb .single, width := 32
        size := some .halfword, payload := some (.word 0xAABB), line := some 1 }) := by
    decide +kernel
  have read : (CommandLine.engine {} ⟨0, ["script"]⟩ {}).parse "AXI READ 0x10" (some 2) =
      .ok (.transaction {
        operation := .read, address := 0x10, burst := .axi .incr, width := 64
        line := some 2 }) := by decide +kernel
  have history : (CommandLine.engine {} ⟨0, ["script"]⟩ {}).grammar.history
      [(1, "AHB WRITE 0x12 0xAABB SINGLE HALFWORD")] = [(0x12, 0xBB), (0x13, 0xAA)] := by
    decide +kernel
  have ends : (match (CommandLine.engine {} ⟨0, ["script"]⟩ {}).run {}
      (.ofText "AHB WRITE 0x12 0xAABB SINGLE HALFWORD\nAXI READ 0x10") { world := {} } with
      | .ok _ _ => true
      | .error _ _ => false) = true := by decide +kernel
  split at ends
  · rename_i results final ended
    have loadless : ∀ line ∈ (Source.readAll {}
        (.ofText "AHB WRITE 0x12 0xAABB SINGLE HALFWORD\nAXI READ 0x10")).1,
        (CommandLine.engine {} ⟨0, ["script"]⟩ {}).Loadless line := by
      rw [readable]
      intro line member p loads
      simp only [List.mem_cons, List.not_mem_nil, or_false] at member
      rcases member with rfl | rfl
      · cases write.symm.trans loads
      · cases read.symm.trans loads
    obtain ⟨-, bytes, reads⟩ :=
      run_refines_memory (onModel_program {} ⟨0, ["script"]⟩ {}) loadless ended
    obtain ⟨record, log, m, n, -, -, traced, kept, number, observes⟩ :=
      reads [(1, "AHB WRITE 0x12 0xAABB SINGLE HALFWORD")] 2 "AXI READ 0x10" [] _ readable read rfl
    rw [history] at observes
    refine ⟨results, final, record, _, ended, ?_, kept.mem ?_, number, ?_, observes⟩
    · rw [bytes, readable]
      decide +kernel
    · rw [traced, Array.toList_push]
      exact List.mem_append_right _ List.mem_cons_self
    · rfl
  · cases ends

end Engine

end BusScript
