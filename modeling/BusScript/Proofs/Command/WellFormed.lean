import Mathlib.Algebra.Group.Int.Defs
import BusScript.Proofs.Command.Literal
import BusScript.Proofs.Command.Parameter
import BusScript.Proofs.Command.Stages
import BusScript.Proofs.Command.Token

/-!
# Actions of lines are well formed

What the engine, the scores and a bench rely on without a look of their own: addresses and words
that fit, the transfer size on AHB and only there, data and expectations of the shape that the
operation asks for and of the count that the burst has, lengths that a bus allows. Each form of
command establishes this on a path of its own, and `wellFormed_of_parse` puts the paths together.
-/

namespace BusScript

/-! ## Well-formed actions -/

/-- A number of no more than so many bits. -/
def Fits (width : Nat) (value : Int) : Prop :=
  0 ≤ value ∧ value < 2 ^ width

namespace Transaction

/-- Only writes bring data: a single one a word, a burst as many words as it has beats. -/
def PayloadFits (t : Transaction) : Prop :=
  match t.operation, t.payload with
  | .write, some (.word value) => Fits t.width.toNat value
  | .burstWrite, some (.beats values) =>
    (values.length : Int) = t.beats ∧ ∀ value ∈ values, Fits t.width.toNat value
  | .read, none | .burstRead, none => True
  | _, _ => False

/-- Only reads may expect something: a single one on AHB a word, the others as many words as they
have beats. -/
def ExpectationFits (t : Transaction) : Prop :=
  match t.operation, t.bus, t.expected with
  | _, _, none => True
  | .read, .ahb, some (.word value) => Fits t.width.toNat value
  | .read, .axi, some (.beats values) | .burstRead, _, some (.beats values) =>
    (values.length : Int) = t.beats ∧ ∀ value ∈ values, Fits t.width.toNat value
  | _, _, _ => False

/-- On AHB a burst of a fixed beat count has that count of beats, and what is no burst has one. On
AXI there are up to 256 beats, 2, 4, 8 or 16 of a wrapping burst and up to 16 of a fixed one. -/
def GeometryFits (t : Transaction) : Prop :=
  match t.burst, t.operation with
  | .ahb kind, .burstWrite | .ahb kind, .burstRead =>
    1 ≤ t.beats ∧ ∀ beats : Nat, kind.beats? = some beats → t.beats = beats
  | .ahb _, _ => t.length = 0
  | .axi kind, _ =>
    0 ≤ t.length ∧ t.length ≤ 255 ∧
      (kind = .wrap → t.beats = 2 ∨ t.beats = 4 ∨ t.beats = 8 ∨ t.beats = 16) ∧
      (kind = .fixed → t.beats ≤ 16)

/-- A transaction that a line can ask for under a grammar. -/
structure WellFormed (grammar : Grammar) (line : Option Int) (t : Transaction) : Prop where
  address : Fits addressWidth t.address
  width : t.width = grammar.width t.bus
  size : t.size.isSome ↔ t.bus = .ahb
  payload : t.PayloadFits
  expectation : t.ExpectationFits
  geometry : t.GeometryFits
  mismatch : t.mismatch.isSome →
    t.expected = none ∧ (t.operation = .burstRead ∨ t.operation = .read ∧ t.bus = .axi)
  protocol : t.protocol = .bus t.bus
  line : t.line = line

end Transaction

/-- The limit of polls that state none is at least one. -/
def Grammar.LimitPositive (grammar : Grammar) : Prop :=
  ∃ reads : Int, grammar.maxPolls = some reads ∧ 1 ≤ reads

/-- A poll that a line can ask for under a grammar. Only the grammar's own limit may be below one.
-/
structure Poll.WellFormed (grammar : Grammar) (line : Option Int) (p : Poll) : Prop where
  address : Fits addressWidth p.address
  expected : Fits (grammar.width p.bus) p.expected
  mask : Fits (grammar.width p.bus) p.mask
  maxPolls : grammar.LimitPositive → ∃ reads : Int, p.maxPolls = some reads ∧ 1 ≤ reads
  width : p.width = grammar.width p.bus
  protocol : p.protocol = .bus p.bus
  line : p.line = line

/-- An action that a line can ask for under a grammar. -/
def Action.WellFormed (grammar : Grammar) (line : Option Int) : Action → Prop
  | .transaction t => t.WellFormed grammar line
  | .poll p => p.WellFormed grammar line
  | .wait w => w.line = line
  | .preload p => p.target ≠ "" ∧ p.dataFile ≠ "" ∧ p.line = line

/-- The line that an action comes from. -/
def Action.line : Action → Option Int
  | .transaction t => t.line
  | .poll p => p.line
  | .wait w => w.line
  | .preload p => p.line

theorem Action.WellFormed.line_eq {grammar : Grammar} {line : Option Int} {action : Action}
    (formed : action.WellFormed grammar line) : action.line = line := by
  cases action with
  | transaction t => exact Transaction.WellFormed.line formed
  | poll p => exact Poll.WellFormed.line formed
  | wait w => exact formed
  | preload p => exact formed.2.2

namespace Grammar

/-! ## Words -/

theorem fits_of_word {token : String} {width : Nat} {value : Int}
    (read : word token width = .ok value) : Fits width value := by
  obtain ⟨n, digits, rfl⟩ := word_eq_ok_iff.mp read
  have below := parseUnsigned_lt digits
  exact ⟨Int.natCast_nonneg n, by exact_mod_cast below⟩

theorem fits_of_words {tokens : List String} {width : Nat} {values : List Int}
    (read : words tokens width = .ok values) : ∀ value ∈ values, Fits width value := by
  unfold words at read
  induction tokens generalizing values with
  | nil =>
    cases read
    intro value member
    cases member
  | cons token tokens ih =>
    rw [List.mapM_cons] at read
    simp only [bind_eq_ok_iff, pure_eq_ok_iff] at read
    obtain ⟨first, front, rest, behind, rfl⟩ := read
    intro value member
    rcases List.mem_cons.mp member with rfl | later
    · exact fits_of_word front
    · exact ih behind value later

theorem length_of_words {tokens : List String} {width : Nat} {values : List Int}
    (read : words tokens width = .ok values) : values.length = tokens.length := by
  unfold words at read
  induction tokens generalizing values with
  | nil => cases read; rfl
  | cons token tokens ih =>
    rw [List.mapM_cons] at read
    simp only [bind_eq_ok_iff, pure_eq_ok_iff] at read
    obtain ⟨first, -, rest, behind, rfl⟩ := read
    rw [List.length_cons, List.length_cons, ih behind]

/-! ## AHB forms -/

theorem wellFormed_of_ahbWrite {grammar : Grammar} {command : Command} {t : Transaction}
    (success : ahbWrite command = .ok t) : t.WellFormed grammar command.line := by
  simp only [ahbWrite, bind_eq_ok_iff, pure_eq_ok_iff, Prod.exists] at success
  obtain ⟨target, data, rest, -, parameters, -, address, addressed, payload, read, rfl⟩ := success
  exact {
    address := fits_of_word addressed
    width := rfl
    size := by simp [Transaction.bus, Burst.bus]
    payload := fits_of_word read
    expectation := trivial
    geometry := rfl
    mismatch := fun given => by cases given
    protocol := rfl
    line := rfl }

theorem wellFormed_of_ahbRead {grammar : Grammar} {command : Command} {t : Transaction}
    (success : ahbRead command = .ok t) : t.WellFormed grammar command.line := by
  -- With or without an expected word the rest is the same.
  have made {target : String} {kind : AhbBurst} {size : AhbSize} {expected : Option Int}
      (fits : ∀ value, expected = some value → Fits ahbWidth value)
      (success : (do
        let address ← address target
        return {
          operation := .read, address, width := ahbWidth
          burst := .ahb kind
          size := some size
          expected := expected.map .word
          line := command.line }) = Except.ok t) : t.WellFormed grammar command.line := by
    simp only [bind_eq_ok_iff, pure_eq_ok_iff] at success
    obtain ⟨address, addressed, rfl⟩ := success
    exact {
      address := fits_of_word addressed
      width := rfl
      size := by simp [Transaction.bus, Burst.bus]
      payload := trivial
      expectation := by
        cases expected with
        | none => trivial
        | some value => exact fits value rfl
      geometry := rfl
      mismatch := fun given => by cases given
      protocol := rfl
      line := rfl }
  simp only [ahbRead, bind_eq_ok_iff, Prod.exists] at success
  obtain ⟨target, rest, -, success⟩ := success
  split at success
  · rw [pure_bind] at success
    exact made (fun value given => by cases given) success
  · obtain ⟨expected, read, success⟩ := bind_eq_ok_iff.mp success
    obtain ⟨value, word, rfl⟩ := map_eq_ok_iff.mp read
    refine made (fun other given => ?_) success
    cases given
    exact fits_of_word word
  · cases success

theorem ne_nil_of_burstData {tokens : List String} {width : Nat} {values : List Int}
    (read : burstData tokens width = .ok values) : values ≠ [] := by
  unfold burstData at read
  obtain ⟨some, read⟩ := if_refuse_eq_ok_iff.mp read
  intro none
  have count := length_of_words read
  rw [none, List.length_nil] at count
  exact some (by rw [List.length_eq_zero_iff.mp count.symm, List.isEmpty_nil])

theorem fits_of_burstData {tokens : List String} {width : Nat} {values : List Int}
    (read : burstData tokens width = .ok values) : ∀ value ∈ values, Fits width value := by
  unfold burstData at read
  exact fits_of_words (if_refuse_eq_ok_iff.mp read).2

theorem beats_of_checkBeats {kind : AhbBurst} {given needed : Nat}
    (success : checkBeats kind given = .ok ()) (fixed : kind.beats? = some needed) :
    given = needed := by
  unfold checkBeats at success
  rw [fixed] at success
  obtain ⟨equal, -⟩ := if_refuse_eq_ok_iff.mp success
  exact not_not.mp equal

theorem wellFormed_of_ahbBurstWrite {grammar : Grammar} {command : Command} {t : Transaction}
    (success : ahbBurstWrite command = .ok t) : t.WellFormed grammar command.line := by
  simp only [ahbBurstWrite_eq, bind_eq_ok_iff, pure_eq_ok_iff, Prod.exists] at success
  obtain ⟨target, rest, -, data, read, _, checked, address, addressed, rfl⟩ := success
  have some : 0 < data.length := List.length_pos_of_ne_nil (ne_nil_of_burstData read)
  have beats : (data.length : Int) - 1 + 1 = data.length := by omega
  exact {
    address := fits_of_word addressed
    width := rfl
    size := by simp [Transaction.bus, Burst.bus]
    payload := ⟨beats.symm, fits_of_burstData read⟩
    expectation := trivial
    geometry := by
      refine ⟨?_, fun needed fixed => ?_⟩
      · show 1 ≤ (data.length : Int) - 1 + 1
        omega
      · show (data.length : Int) - 1 + 1 = needed
        rw [beats, beats_of_checkBeats checked fixed]
    mismatch := fun given => by cases given
    protocol := rfl
    line := rfl }

/-- What is read of several beats expects as many words as there are beats, or cannot be compared
and expects nothing. -/
theorem expectationFits_of_read {t : Transaction} {values : List Int} {beats : Nat}
    {found : BeatMismatch}
    (operation : t.operation = .burstRead ∨ t.operation = .read ∧ t.bus = .axi)
    (count : t.beats = beats) (fits : ∀ value ∈ values, Fits t.width.toNat value)
    (mismatch : t.mismatch = if values.isEmpty ∨ values.length = beats then none else some found)
    (expected : t.expected = if t.mismatch.isSome then none else expectation values) :
    t.ExpectationFits := by
  unfold expectation at expected
  unfold Transaction.ExpectationFits
  by_cases equal : values.length = beats
  · rw [if_pos (.inr equal)] at mismatch
    rw [mismatch] at expected
    have shape : (values.length : Int) = t.beats ∧ ∀ value ∈ values, Fits t.width.toNat value :=
      ⟨by rw [count, equal], fits⟩
    by_cases empty : values.isEmpty
    · simp [expected, empty]
    · rcases operation with burst | ⟨single, bus⟩
      · simpa [expected, empty, burst] using shape
      · simpa [expected, empty, single, bus] using shape
  · have none : t.expected = none := by
      by_cases empty : values.isEmpty
      · simp [expected, empty]
      · simp [expected, mismatch, empty, equal]
    simp [none]

theorem wellFormed_of_ahbBurstRead {grammar : Grammar} {command : Command} {t : Transaction}
    (success : ahbBurstRead command = .ok t) : t.WellFormed grammar command.line := by
  simp only [ahbBurstRead, bind_eq_ok_iff, pure_eq_ok_iff, Prod.exists] at success
  obtain ⟨target, rest, -, data, read, address, addressed, rfl⟩ := success
  generalize ahbKind (takeFront (Rule.table .ahb) rest) .incr = kind
  generalize counted : kind.beats?.getD (max data.length 1) = beats
  have some : 1 ≤ beats := by
    rw [← counted]
    cases kind with
    | incr => exact Nat.le_max_right _ 1
    | _ => simp [AhbBurst.beats?]
  exact {
    address := fits_of_word addressed
    width := rfl
    size := by simp [Transaction.bus, Burst.bus]
    payload := trivial
    expectation :=
      expectationFits_of_read (.inl rfl) (Int.sub_add_cancel _ 1) (fits_of_words read) rfl rfl
    geometry := by
      refine ⟨?_, fun needed fixed => ?_⟩
      · show 1 ≤ (beats : Int) - 1 + 1
        omega
      · show (beats : Int) - 1 + 1 = needed
        rw [fixed] at counted
        rw [← counted, Option.getD_some]
        omega
    mismatch := fun given => ⟨if_pos given, .inl rfl⟩
    protocol := rfl
    line := rfl }

/-! ## AXI forms -/

theorem axiLength_le {token : String} {length : Nat} (read : axiLength token = .ok length) :
    length ≤ 255 := by
  have most := parseCount_le read
  omega

theorem axiLengthOrOne_le {parameters : Parameters} {length : Nat}
    (read : axiLengthOrOne parameters = .ok length) : length ≤ 255 := by
  unfold axiLengthOrOne at read
  split at read
  · exact axiLength_le read
  · cases read
    omega

theorem checkGeometry_eq_ok_iff {form : Form} {kind : AxiBurst} {length : Nat} :
    checkGeometry form kind length = .ok () ↔
      (kind = .wrap → length + 1 = 2 ∨ length + 1 = 4 ∨ length + 1 = 8 ∨ length + 1 = 16) ∧
        (kind = .fixed → length + 1 ≤ 16) := by
  unfold checkGeometry
  simp only [if_refuse_eq_ok_iff, List.mem_cons, List.not_mem_nil, or_false]
  constructor
  · rintro ⟨wrapping, fixed, -⟩
    exact ⟨fun wrap => by_contra fun other => wrapping ⟨wrap, other⟩,
      fun kept => by_contra fun more => fixed ⟨kept, by omega⟩⟩
  · rintro ⟨wrapping, fixed⟩
    refine ⟨fun ⟨wrap, other⟩ => other (wrapping wrap), fun ⟨kept, more⟩ => ?_, trivial⟩
    have most := fixed kept
    omega

theorem geometryFits_of_axi {t : Transaction} {form : Form} {kind : AxiBurst} {length : Nat}
    (burst : t.burst = .axi kind) (equal : t.length = length) (most : length ≤ 255)
    (checked : checkGeometry form kind length = .ok ()) : t.GeometryFits := by
  obtain ⟨wrapping, fixed⟩ := checkGeometry_eq_ok_iff.mp checked
  have beats : t.beats = length + 1 := by rw [Transaction.beats, equal]
  unfold Transaction.GeometryFits
  rw [burst]
  refine ⟨by omega, by omega, fun wrap => ?_, fun kept => ?_⟩
  · have counts := wrapping wrap
    omega
  · have counts := fixed kept
    omega

variable {grammar : Grammar}

theorem wellFormed_of_axiWrite {command : Command} {t : Transaction}
    (success : axiWrite grammar command = .ok t) : t.WellFormed grammar command.line := by
  simp only [axiWrite, bind_eq_ok_iff, pure_eq_ok_iff, Prod.exists] at success
  obtain ⟨target, data, rest, -, parameters, -, length, counted, _, checked, address, addressed,
    payload, read, rfl⟩ := success
  exact {
    address := fits_of_word addressed
    width := rfl
    size := by simp [Transaction.bus, Burst.bus]
    payload := fits_of_word read
    expectation := trivial
    geometry := geometryFits_of_axi rfl rfl (axiLengthOrOne_le counted) checked
    mismatch := fun given => by cases given
    protocol := rfl
    line := rfl }

theorem wellFormed_of_axiRead {operation : Operation} {command : Command} {t : Transaction}
    (reads : operation = .read ∨ operation = .burstRead)
    (success : axiRead grammar operation command = .ok t) : t.WellFormed grammar command.line := by
  simp only [axiRead, bind_eq_ok_iff, pure_eq_ok_iff, Prod.exists] at success
  obtain ⟨target, rest, -, length, counted, _, checked, data, read, address, addressed, rfl⟩ :=
    success
  have kept : operation = .burstRead ∨ operation = .read ∧ Bus.axi = .axi := by
    rcases reads with rfl | rfl
    · exact .inr ⟨rfl, rfl⟩
    · exact .inl rfl
  exact {
    address := fits_of_word addressed
    width := rfl
    size := by simp [Transaction.bus, Burst.bus]
    payload := by
      rcases reads with rfl | rfl
      · trivial
      · trivial
    expectation := expectationFits_of_read kept rfl (fits_of_words read) rfl rfl
    geometry := geometryFits_of_axi rfl rfl (axiLengthOrOne_le counted) checked
    mismatch := fun given => ⟨if_pos given, kept⟩
    protocol := rfl
    line := rfl }

/-- The length of a burst write says how many words there are. -/
theorem length_of_dataLength {given : Option String} {count length : Nat} (some : count ≠ 0)
    (read : dataLength given count = .ok length) : count = length + 1 ∧ length ≤ 255 := by
  unfold dataLength at read
  split at read
  · obtain ⟨asked, counted, read⟩ := bind_eq_ok_iff.mp read
    obtain ⟨equal, read⟩ := if_refuse_eq_ok_iff.mp read
    cases read
    exact ⟨not_not.mp equal, axiLength_le counted⟩
  · obtain ⟨most, read⟩ := if_refuse_eq_ok_iff.mp read
    cases read
    omega

theorem wellFormed_of_axiBurstWrite {command : Command} {t : Transaction}
    (success : axiBurstWrite grammar command = .ok t) : t.WellFormed grammar command.line := by
  simp only [axiBurstWrite_eq, bind_eq_ok_iff, pure_eq_ok_iff, Prod.exists] at success
  obtain ⟨target, rest, -, data, read, length, counted, _, checked, address, addressed, rfl⟩ :=
    success
  have some : data.length ≠ 0 := fun none =>
    ne_nil_of_burstData read (List.length_eq_zero_iff.mp none)
  obtain ⟨count, most⟩ := length_of_dataLength some counted
  exact {
    address := fits_of_word addressed
    width := rfl
    size := by simp [Transaction.bus, Burst.bus]
    payload := ⟨congrArg Int.ofNat count, fits_of_burstData read⟩
    expectation := trivial
    geometry := geometryFits_of_axi rfl rfl most checked
    mismatch := fun given => by cases given
    protocol := rfl
    line := rfl }

/-! ## Polls -/

theorem fits_of_pollMask {bus : Bus} {given : Option String} {mask : Int}
    (read : pollMask grammar bus given = .ok mask) : Fits (grammar.width bus) mask := by
  unfold pollMask at read
  split at read
  · exact fits_of_word read
  · cases read
    have positive : 0 < Int.pow 2 (grammar.width bus) := Int.pow_pos (by decide)
    refine ⟨by omega, ?_⟩
    show Int.pow 2 (grammar.width bus) - 1 < Int.pow 2 (grammar.width bus)
    omega

theorem positive_of_pollLimit {given : Option String} {limit : Option Int}
    (default : grammar.LimitPositive) (read : pollLimit grammar given = .ok limit) :
    ∃ reads, limit = some reads ∧ 1 ≤ reads := by
  unfold pollLimit at read
  split at read
  · obtain ⟨count, -, read⟩ := bind_eq_ok_iff.mp read
    obtain ⟨some, read⟩ := if_refuse_eq_ok_iff.mp read
    cases read
    exact ⟨count, rfl, by omega⟩
  · cases read
    exact default

theorem wellFormed_of_poll {bus : Bus} {command : Command} {p : Poll}
    (success : grammar.poll bus command = .ok p) : p.WellFormed grammar command.line := by
  rw [poll_eq] at success
  simp only [bind_eq_ok_iff, Prod.exists] at success
  obtain ⟨target, value, rest, -, success⟩ := success
  split at success
  · cases success
  · simp only [bind_eq_ok_iff, pure_eq_ok_iff] at success
    obtain ⟨mask, masked, limit, limited, address, addressed, expected, read, rfl⟩ := success
    exact {
      address := fits_of_word addressed
      expected := fits_of_word read
      mask := fits_of_pollMask masked
      maxPolls := fun default => positive_of_pollLimit default limited
      width := rfl
      protocol := rfl
      line := rfl }

/-! ## Lines -/

theorem line_of_wait {command : Command} {w : Wait} (success : wait command = .ok w) :
    w.line = command.line := by
  unfold wait at success
  split at success
  · cases success
    rfl
  · obtain ⟨cycles, -, success⟩ := bind_eq_ok_iff.mp success
    cases success
    rfl
  · cases success

theorem preload_eq_ok_iff {command : Command} {p : Preload} :
    preload command = .ok p ↔
      command.arguments = [p.target, p.dataFile] ∧ p.line = command.line := by
  unfold preload
  split
  · rename_i target dataFile given
    rw [pure_eq_ok_iff, given]
    constructor
    · rintro rfl
      exact ⟨rfl, rfl⟩
    · rintro ⟨equal, line⟩
      cases p
      cases equal
      rw [← line]
  · rename_i other
    simp only [refuse_ne_ok, false_iff]
    rintro ⟨given, -⟩
    exact other _ _ given

theorem wellFormed_of_action {command : Command} {action : Action}
    (filled : ∀ token ∈ command.arguments, token ≠ "")
    (success : grammar.action command = .ok action) : action.WellFormed grammar command.line := by
  unfold Grammar.action at success
  split at success
  all_goals obtain ⟨request, resolved, rfl⟩ := map_eq_ok_iff.mp success
  · exact wellFormed_of_ahbWrite resolved
  · exact wellFormed_of_ahbRead resolved
  · exact wellFormed_of_ahbBurstWrite resolved
  · exact wellFormed_of_ahbBurstRead resolved
  · exact wellFormed_of_axiWrite resolved
  · exact wellFormed_of_axiRead (.inl rfl) resolved
  · exact wellFormed_of_axiBurstWrite resolved
  · exact wellFormed_of_axiRead (.inr rfl) resolved
  · exact wellFormed_of_poll resolved
  · exact line_of_wait resolved
  · obtain ⟨given, line⟩ := preload_eq_ok_iff.mp resolved
    rw [given] at filled
    exact ⟨filled _ (by simp), filled _ (by simp), line⟩

/-- The action of a line is the action of a command that its tokens make. -/
theorem parse_eq_ok_iff {text : String} {line : Option Int} {action : Action} :
    grammar.parse text line = .ok action ↔
      ∃ command, Command.ofTokens (tokenize text) line = .ok command ∧
        grammar.action command = .ok action := by
  unfold parse resolve
  cases Command.ofTokens (tokenize text) line with
  | error error => simp
  | ok command =>
    simp only [Except.ok.injEq, exists_eq_left']
    cases grammar.action command <;> simp [Except.mapError]

theorem line_of_ofTokens {tokens : List String} {line : Option Int} {command : Command}
    (made : Command.ofTokens tokens line = .ok command) : command.line = line := by
  unfold Command.ofTokens at made
  split at made
  · cases made
    rfl
  · cases made

/-- Every action of a line is well formed and carries the number of its line. -/
theorem wellFormed_of_parse {text : String} {line : Option Int} {action : Action}
    (success : grammar.parse text line = .ok action) : action.WellFormed grammar line := by
  obtain ⟨command, made, success⟩ := parse_eq_ok_iff.mp success
  rw [← line_of_ofTokens made]
  exact wellFormed_of_action (fun token => Command.arguments_ne_empty made) success

/-- Where the limit of polls is positive, every action of a line is well formed, and every poll
makes at least one read. -/
theorem parsed_action_wellFormed {text : String} {line : Option Int} {action : Action}
    (positive : grammar.LimitPositive) (success : grammar.parse text line = .ok action) :
    action.WellFormed grammar line ∧
      ∀ p, action = .poll p → ∃ reads : Int, p.maxPolls = some reads ∧ 1 ≤ reads := by
  have formed := wellFormed_of_parse success
  refine ⟨formed, ?_⟩
  rintro p rfl
  have polls : p.WellFormed grammar line := formed
  exact polls.maxPolls positive

theorem parsed_burst_and_poll_wellFormed :
    (∃ t, Grammar.parse {} "axi burst_write 0x44 WRAP 3 1 2 3 4" (some 7) = .ok (.transaction t) ∧
      t.WellFormed {} (some 7)) ∧
      ∃ p, Grammar.parse {} "AHB POLL 10 1 F" (some 8) = .ok (.poll p) ∧
        p.WellFormed {} (some 8) ∧ ∃ reads : Int, p.maxPolls = some reads ∧ 1 ≤ reads := by
  have burst : Grammar.parse {} "axi burst_write 0x44 WRAP 3 1 2 3 4" (some 7) =
      .ok (.transaction {
        operation := .burstWrite, address := 0x44, width := 64
        burst := .axi .wrap, length := 3
        payload := some (.beats [1, 2, 3, 4])
        line := some 7 }) := by decide +kernel
  have poll : Grammar.parse {} "AHB POLL 10 1 F" (some 8) =
      .ok (.poll {
        bus := .ahb, address := 0x10, expected := 1, mask := 0xF
        maxPolls := some 1000, width := 32
        line := some 8 }) := by decide +kernel
  have positive : Grammar.LimitPositive {} := ⟨1000, rfl, by decide⟩
  obtain ⟨formed, limited⟩ := parsed_action_wellFormed positive poll
  exact ⟨⟨_, burst, (parsed_action_wellFormed positive burst).1⟩, _, poll, formed, limited _ rfl⟩

end Grammar

end BusScript
