import Mathlib.Order.Bounds.Defs
import BusScript.Proofs.Run.Issuing

/-!
# Polls

How often a poll reads, how often it waits, and what it comes to, for any words that its transactor
answers with one after the other (`Engine.Feeds`). It stops at the first word that shows the
expected bits, or at its limit (`Poll.StopsAfter`), and it waits between two reads and at no other
time. What it read last is in its record and, if it failed, in the message.
-/

namespace BusScript

/-- The word that a poll takes from the answer to a call: of beats it is the first. -/
def BusCall.word? : (call : BusCall) → call.Reply → Option Int
  | .read .., word => some word
  | .readBurst .., words => words.head?
  | .write .., _ | .writeBurst .., _ => none

namespace Poll

variable {p : Poll}

/-! ## What a poll asks for -/

/-- The reads of a poll, with a wait between each two if there are cycles to wait for. -/
theorem asked_eq_intercalate (p : Poll) (interval reads : Nat) :
    p.asked interval reads =
      (cyclesAsked interval).intercalate (List.replicate reads [.call p.bus p.readCall]) := by
  induction reads using asked.induct with
  | case1 => rfl
  | case2 => rfl
  | case3 reads ih =>
    rw [asked, ih, List.replicate_succ, List.replicate_succ]
    exact List.append_assoc [Asked.call p.bus p.readCall] (cyclesAsked interval) _

theorem cycles_ne_readCall (p : Poll) (count : Nat) :
    Asked.cycles count ≠ .call p.bus p.readCall := by
  intro same
  cases same

theorem count_read_asked (p : Poll) (interval reads : Nat) :
    (p.asked interval reads).count (.call p.bus p.readCall) = reads := by
  have pause : (cyclesAsked interval).count (.call p.bus p.readCall) = 0 := by
    refine List.count_eq_zero.mpr fun member => ?_
    unfold cyclesAsked at member
    split at member
    · cases member
    · exact p.cycles_ne_readCall interval (List.mem_singleton.mp member).symm
  induction reads using asked.induct with
  | case1 => rfl
  | case2 => rw [asked, List.count_singleton_self]
  | case3 reads ih =>
    rw [asked, List.cons_append, List.count_cons_self, List.count_append, ih, pause, Nat.zero_add]

theorem count_cycles_asked (p : Poll) (interval reads : Nat) :
    (p.asked interval reads).count (.cycles interval) = if interval = 0 then 0 else reads - 1 := by
  have read : Asked.call p.bus p.readCall ≠ .cycles interval := (p.cycles_ne_readCall interval).symm
  have pause : (cyclesAsked interval).count (.cycles interval) = if interval = 0 then 0 else 1 := by
    unfold cyclesAsked
    split
    · rfl
    · exact List.count_singleton_self
  induction reads using asked.induct with
  | case1 => rw [asked, List.count_nil, Nat.zero_sub, ite_self]
  | case2 =>
    rw [asked, List.count_cons_of_ne read, List.count_nil, Nat.sub_self, ite_self]
  | case3 reads ih =>
    rw [asked, List.cons_append, List.count_cons_of_ne read, List.count_append, ih, pause]
    split
    · rfl
    · omega

/-! ## When a poll stops -/

/-- The word shows the bits that are polled for. -/
def Shows (p : Poll) (word : Int) : Prop :=
  Number.bitAnd word p.mask = Number.bitAnd p.expected p.mask

instance (word : Int) : Decidable (p.Shows word) :=
  inferInstanceAs (Decidable (_ = _))

/-- So many reads are made up to a limit, the first of which is answered with word 1. -/
structure StopsAfter (p : Poll) (words : Nat → Int) (limit reads : Nat) : Prop where
  some : 1 ≤ reads
  most : reads ≤ limit
  before : ∀ i, 1 ≤ i → i < reads → ¬ p.Shows (words i)
  found : reads < limit → p.Shows (words reads)

variable {words : Nat → Int} {limit reads : Nat}

theorem stopsAfter_first (shows : p.Shows (words 1)) : p.StopsAfter words (limit + 1) 1 where
  some := Nat.le_refl 1
  most := Nat.le_add_left 1 limit
  before _ some below := absurd below (Nat.not_lt.mpr some)
  found _ := shows

theorem stopsAfter_last (p : Poll) (words : Nat → Int) : p.StopsAfter words 1 1 where
  some := Nat.le_refl 1
  most := Nat.le_refl 1
  before _ some below := absurd below (Nat.not_lt.mpr some)
  found below := absurd below (Nat.lt_irrefl 1)

theorem StopsAfter.succ (later : p.StopsAfter (fun i => words (i + 1)) limit reads)
    (missed : ¬ p.Shows (words 1)) : p.StopsAfter words (limit + 1) (reads + 1) where
  some := Nat.le_add_left 1 reads
  most := Nat.succ_le_succ later.most
  before
    | 0, some, _ => absurd some (Nat.not_succ_le_zero 0)
    | 1, _, _ => missed
    | i + 2, _, below => later.before (i + 1) (Nat.le_add_left 1 i) (Nat.lt_of_succ_lt_succ below)
  found below := later.found (Nat.lt_of_succ_lt_succ below)

/-- It is the least read that shows the expected bits, where there is one. -/
theorem StopsAfter.eq_of_isLeast (stops : p.StopsAfter words limit reads) {k : Nat}
    (least : IsLeast {k | 1 ≤ k ∧ k ≤ limit ∧ p.Shows (words k)} k) : reads = k := by
  obtain ⟨⟨some, most, shows⟩, least⟩ := least
  refine Nat.le_antisymm (Nat.le_of_not_lt fun beyond => stops.before k some beyond shows) ?_
  by_cases early : reads < limit
  · exact least ⟨stops.some, stops.most, stops.found early⟩
  · exact most.trans (Nat.le_of_not_lt early)

/-- It is the limit, where no read up to it shows the expected bits. -/
theorem StopsAfter.eq_limit (stops : p.StopsAfter words limit reads)
    (missed : ∀ k, 1 ≤ k → k ≤ limit → ¬ p.Shows (words k)) : reads = limit := by
  refine Nat.le_antisymm stops.most (Nat.le_of_not_lt fun early => ?_)
  exact missed reads stops.some stops.most (stops.found early)

end Poll

namespace Engine

open Run

variable {σ : Type}

/-! ## Benches -/

/-- A bench that answers the reads of a poll with one word after the other, from word 1 on. The
states that it can be in after so many reads are those of `At`. If there are cycles to wait for
between two reads it has a clock, which keeps to these states. -/
structure Feeds (e : Engine σ) (p : Poll) (words : Nat → Int) (At : Nat → σ → Prop) : Prop where
  read : ∃ transactor, e.bench.transactor? p.bus = some transactor ∧
    ∀ reads world, At reads world →
      At (reads + 1) (transactor p.readCall world).state ∧
      ∃ reply, (transactor p.readCall world).result = .ok reply ∧
        p.readCall.word? reply = some (words (reads + 1))
  clock : e.config.pollInterval ≠ 0 → ∃ clock, e.bench.clock = some clock ∧
    ∀ reads world, At reads world →
      At reads (clock e.config.pollInterval world).state ∧
      (clock e.config.pollInterval world).result = .ok ()

variable {e : Engine σ} {p : Poll} {words : Nat → Int} {At : Nat → σ → Prop}

/-- After the first read the others are answered. -/
theorem Feeds.succ (feeds : e.Feeds p words At) :
    e.Feeds p (fun i => words (i + 1)) (fun i => At (i + 1)) where
  read := by
    obtain ⟨transactor, attached, answers⟩ := feeds.read
    exact ⟨transactor, attached, fun reads => answers (reads + 1)⟩
  clock some := by
    obtain ⟨clock, attached, passes⟩ := feeds.clock some
    exact ⟨clock, attached, fun reads => passes (reads + 1)⟩

variable {s : RunState (Noted σ)}

theorem Feeds.readWord (feeds : e.Feeds p words At) (start : At 0 s.world.world) :
    ∃ t, e.noted.readWord p s = .ok (words 1) t ∧ At 1 t.world.world ∧
      t.world.history = s.world.history ++ [.call p.bus p.readCall] := by
  obtain ⟨transactor, attached, answers⟩ := feeds.read
  obtain ⟨later, reply, answer, word⟩ := answers 0 s.world.world start
  have begun : e.noted.transactor p.bus p.line s = .ok (transactor.noted p.bus) s :=
    transactor_ok_iff.mpr ⟨transactor?_noted_eq_some_iff.mpr ⟨transactor, attached, rfl⟩, rfl⟩
  have asked : ask (transactor.noted p.bus p.readCall) s = .ok reply _ :=
    ask_ok_iff.mpr ⟨answer, rfl⟩
  unfold Engine.readWord
  rw [bind_apply begun]
  obtain ⟨bus, address, expected, mask, maxPolls, width, line, protocol⟩ := p
  cases bus with
  | ahb =>
    cases word
    exact ⟨_, asked, later, rfl⟩
  | axi =>
    obtain ⟨rest, rfl⟩ := List.head?_eq_some_iff.mp word
    exact ⟨_, bind_apply asked, later, rfl⟩

theorem Feeds.waitCycles (feeds : e.Feeds p words At) {reads : Nat}
    (start : At reads s.world.world) (line : Option Int) :
    ∃ t, e.noted.waitCycles e.config.pollInterval line s = .ok () t ∧ At reads t.world.world ∧
      t.world.history = s.world.history ++ cyclesAsked e.config.pollInterval := by
  unfold Engine.waitCycles cyclesAsked
  by_cases none : e.config.pollInterval = 0
  · rw [if_pos none, if_pos none, List.append_nil]
    exact ⟨s, rfl, start, rfl⟩
  · rw [if_neg none, if_neg none]
    obtain ⟨clock, attached, passes⟩ := feeds.clock none
    obtain ⟨later, passed⟩ := passes reads s.world.world start
    have noted : e.noted.bench.clock = some fun count =>
        Effect.noted (clock count) fun _ => .cycles count := by
      rw [Engine.noted, Bench.noted, attached]
      rfl
    rw [noted]
    exact ⟨_, ask_ok_iff.mpr ⟨passed, rfl⟩, later, rfl⟩

/-! ## The reads of a poll -/

theorem Feeds.pollReads (feeds : e.Feeds p words At) (limit : Nat) (sofar : PollOutcome)
    (start : At 0 s.world.world) :
    ∃ reads t, p.StopsAfter words (limit + 1) reads ∧
      e.noted.pollReads p sofar (limit + 1) s =
        .ok ⟨words reads, p.Shows (words reads), sofar.reads + reads⟩ t ∧
      t.world.history = s.world.history ++ p.asked e.config.pollInterval reads := by
  induction limit generalizing words At sofar s with
  | zero =>
    obtain ⟨m, read, -, history⟩ := feeds.readWord start
    refine ⟨1, m, p.stopsAfter_last words, ?_, history⟩
    unfold Engine.pollReads
    rw [bind_apply read]
    by_cases shows : p.Shows (words 1)
    · rw [decide_eq_true shows]
      exact congrFun (if_pos shows) m
    · rw [decide_eq_false shows]
      exact congrFun (if_neg shows) m
  | succ limit ih =>
    obtain ⟨m, read, later, first⟩ := feeds.readWord start
    by_cases shows : p.Shows (words 1)
    · refine ⟨1, m, Poll.stopsAfter_first shows, ?_, first⟩
      unfold Engine.pollReads
      rw [bind_apply read, decide_eq_true shows]
      exact congrFun (if_pos shows) m
    · obtain ⟨n, waited, later, pause⟩ := feeds.waitCycles later p.line
      obtain ⟨reads, t, stops, rest, history⟩ :=
        ih feeds.succ ⟨words 1, false, sofar.reads + 1⟩ later
      refine ⟨reads + 1, t, stops.succ shows, ?_, ?_⟩
      · unfold Engine.pollReads
        rw [bind_apply read]
        rw [Nat.add_comm reads 1, ← Nat.add_assoc, Nat.add_comm 1 reads, ← rest]
        refine (congrFun (if_neg shows) m).trans ?_
        exact bind_apply waited
      · obtain ⟨others, rfl⟩ := Nat.exists_eq_add_of_le' stops.some
        rw [history, pause, first, Poll.asked]
        simp only [List.append_assoc, List.cons_append, List.nil_append]

/-- What a poll of so many reads leaves behind: the reads, with a wait between each two if there are
cycles to wait for, and a record of the last word. -/
structure Polled (e : Engine σ) (p : Poll) (reads : Nat) (word : Int) (status : Status)
    (s t : RunState (Noted σ)) : Prop where
  asked : ∃ asked, t.world.history = s.world.history ++ asked ∧
    asked = (cyclesAsked e.config.pollInterval).intercalate
      (List.replicate reads [.call p.bus p.readCall]) ∧
    asked.count (.call p.bus p.readCall) = reads ∧
    asked.count (.cycles e.config.pollInterval) =
      if e.config.pollInterval = 0 then 0 else reads - 1
  traced : ∃ record, t.traces = s.traces.push record ∧ record.data = [word] ∧
    record.status = some status.name ∧
    record.detail = some s!"mask={Number.formatHex p.mask p.width} reads={(reads : Int)}"

/-- A poll on a bench that answers it comes to the verdict on its last word. -/
theorem Feeds.exists_poll (feeds : e.Feeds p words At) {m : Nat}
    (limit : p.maxPolls = some (m : Int)) (some : 1 ≤ m) (start : At 0 s.world.world) :
    ∃ reads t, p.StopsAfter words m reads ∧ e.noted.poll p s = .ok () t ∧
      t.results = s.results.record (p.score (words reads) (p.Shows (words reads)) reads) ∧
      e.Polled p reads (words reads)
        (if p.Shows (words reads) then .pass else .fail) s t := by
  obtain ⟨m, rfl⟩ := Nat.exists_eq_add_of_le' some
  obtain ⟨reads, n, stops, ended, history⟩ := feeds.pollReads m {} start
  obtain ⟨results, traces⟩ := ((readsKeep_uncounted.pollReads p {} _) s).1 _ _ ended
  rw [Nat.zero_add] at ended
  let verdict := p.score (words reads) (p.Shows (words reads)) reads
  obtain ⟨log, entered⟩ := exists_enter_apply verdict n
  obtain ⟨log, emitted⟩ := exists_emit_apply
    (.ofPoll p (words reads) (p.Shows (words reads)) reads)
    { n with results := n.results.record verdict, log }
  have count : (p.maxPolls.getD 0).toNat = m + 1 := by
    rw [limit]
    rfl
  rw [← count] at ended
  refine ⟨reads, _, stops, (bind_apply ended).trans ((bind_apply entered).trans emitted),
    congrArg (Results.record · verdict) results, ?_, ?_⟩
  · exact ⟨_, history, p.asked_eq_intercalate _ reads, p.count_read_asked _ reads,
      p.count_cycles_asked _ reads⟩
  · refine ⟨_, congrArg (Array.push · _) traces, rfl, ?_, rfl⟩
    by_cases shows : p.Shows (words reads)
    · rw [if_pos shows]
      simp only [TraceRecord.ofPoll, shows, decide_true, if_true]
    · rw [if_neg shows]
      simp only [TraceRecord.ofPoll, shows, decide_false]
      rfl

/-- A poll stops with a pass at the first word that shows the expected bits, and if none up to its
limit does, it fails there and names the last one. -/
theorem poll_stops_at_first (feeds : e.Feeds p words At) {m : Nat}
    (limit : p.maxPolls = some (m : Int)) (some : 1 ≤ m) (start : At 0 s.world.world) :
    (∀ k, IsLeast {k | 1 ≤ k ∧ k ≤ m ∧ p.Shows (words k)} k →
      ∃ t, e.noted.poll p s = .ok () t ∧ t.results = s.results.recordPass ∧
        e.Polled p k (words k) .pass s t) ∧
    ((∀ k, 1 ≤ k → k ≤ m → ¬ p.Shows (words k)) →
      ∃ t place, e.noted.poll p s = .ok () t ∧
        (let hex (value : Int) := Number.formatHex value p.width
        t.results = s.results.recordFail (place ++ ": " ++
          (s!"poll timeout at {addressText p.address} after {(m : Int)} reads: "
            ++ s!"expected {hex p.expected} mask {hex p.mask}, observed {hex (words m)}"))) ∧
        e.Polled p m (words m) .fail s t) := by
  obtain ⟨reads, t, stops, ended, results, polled⟩ := feeds.exists_poll limit some start
  constructor
  · intro k least
    obtain rfl := stops.eq_of_isLeast least
    have shows := least.1.2.2
    rw [if_pos shows] at polled
    rw [decide_eq_true shows] at results
    exact ⟨t, ended, results, polled⟩
  · intro missed
    obtain rfl := stops.eq_limit missed
    have hidden := missed reads some (Nat.le_refl reads)
    rw [if_neg hidden] at polled
    rw [decide_eq_false hidden] at results
    exact ⟨t, _, ended, results, polled⟩

/-- Any words can be answered with one after the other. -/
theorem feeds_answeringEngine (p : Poll) (words : Nat → Int) :
    (answeringEngine (fun reads => words (reads + 1)) Nat.succ).Feeds p words
      (fun reads world => world = reads) where
  read := by
    refine ⟨answering (fun reads => words (reads + 1)) Nat.succ, ?_, fun reads world now => ?_⟩
    · cases p.bus <;> rfl
    · subst now
      unfold Poll.readCall
      cases p.bus with
      | ahb => exact ⟨rfl, words (world + 1), rfl, rfl⟩
      | axi => exact ⟨rfl, [words (world + 1)], rfl, rfl⟩
  clock _ := ⟨fun _ world => ⟨.ok (), world, []⟩, rfl, fun _ _ now => ⟨now, rfl⟩⟩

/-- Words that count up from one show three in their low bits at the third read. -/
theorem poll_stops_at_third_word :
    let e := answeringEngine (fun reads : Nat => ((reads + 1 : Nat) : Int)) Nat.succ
    let p : Poll := {
      bus := .axi, address := 0x40, expected := 0xF3, mask := 0x7, maxPolls := some 4, width := 64 }
    let read := Asked.call .axi (.readBurst 0x40 (.axi .incr) 0 (.size none))
    ∃ t, e.noted.poll p { world := ⟨0, []⟩ } = .ok () t ∧
      t.world.history = [read, .cycles 10, read, .cycles 10, read] ∧
      t.results.passed = 1 ∧ t.results.failed = 0 ∧
      e.Polled p 3 3 .pass { world := ⟨0, []⟩ } t := by
  intro e p read
  have feeds := feeds_answeringEngine p fun reads => (reads : Int)
  have least : IsLeast {k : Nat | 1 ≤ k ∧ k ≤ 4 ∧ p.Shows (k : Int)} 3 := by
    refine ⟨⟨by decide, by decide, by decide⟩, ?_⟩
    rintro k ⟨some, -, shows⟩
    by_contra early
    obtain rfl | rfl : k = 1 ∨ k = 2 := by omega
    · exact absurd shows (by decide)
    · exact absurd shows (by decide)
  obtain ⟨t, ended, results, polled⟩ :=
    (poll_stops_at_first (s := { world := ⟨0, []⟩ }) feeds rfl (by decide) rfl).1 3 least
  obtain ⟨asked, history, between, -⟩ := polled.asked
  refine ⟨t, ended, ?_, congrArg (·.passed) results, congrArg (·.failed) results, polled⟩
  rw [history, between]
  rfl

end Engine

end BusScript
