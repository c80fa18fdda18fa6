import BusScript.Action
import BusScript.Command.Form
import BusScript.Number.Hex

/-!
# Scoring

A read that states an expectation passes or fails, and so does a poll. A failure tells where it
happened and how expectation and observation differ; of several differing beats it tells the first.
The counters of a run keep the sum.

`score` gives the verdict on whatever a script can ask for. Transactions and polls that were put
together otherwise may be past scoring, and `assess` says why.
-/

namespace BusScript

/-! ## Failures -/

/-- How an observation differs from what was expected. -/
inductive Difference
  /-- A single word. -/
  | word (address expected observed : Int)
  /-- The number of beats. -/
  | beatCount (address : Int) (expected observed : Nat)
  /-- One beat of several. -/
  | beat (address : Int) (index : Nat) (expected observed : Int)
  /-- A poll ran out of reads; what was read last, if anything was. -/
  | poll (address : Int) (reads : Int) (expected mask : Int) (observed : Option Int)
  deriving DecidableEq, Repr

/-- A failed check of a protocol's command, perhaps on a known line. Values are as wide as the
bus. -/
structure Failure where
  protocol : Protocol
  line : Option Int
  width : Int
  difference : Difference
  deriving DecidableEq, Repr

/-- An address in eight capital digits. -/
def addressText (address : Int) : String :=
  Number.paddedHex .capital 8 address

/-- The protocol of a check, with the line if there is one. -/
def Failure.place (failure : Failure) : String :=
  match failure.line with
  | none => failure.protocol.name
  | some line => s!"{failure.protocol.name} line {line}"

def Failure.message (failure : Failure) : String :=
  let hex (value : Int) : String := Number.formatHex value failure.width
  let told := match failure.difference with
    | .word address expected observed =>
      s!"mismatch at {addressText address}: expected {hex expected}, observed {hex observed}"
    | .beatCount address expected observed =>
      s!"beat count mismatch at {addressText address}: "
        ++ s!"expected {expected} beats, observed {observed}"
    | .beat address index expected observed =>
      s!"mismatch at {addressText address} beat {index}: "
        ++ s!"expected {hex expected}, observed {hex observed}"
    | .poll address reads expected mask observed =>
      let last := match observed with
        | none => "nothing"
        | some word => hex word
      s!"poll timeout at {addressText address} after {reads} reads: "
        ++ s!"expected {hex expected} mask {hex mask}, observed {last}"
  failure.place ++ ": " ++ told

/-! ## Verdicts -/

/-- How a check came out. -/
inductive Verdict
  | pass
  | fail (failure : Failure)
  deriving DecidableEq, Repr

def Verdict.passed : Verdict → Bool
  | .pass => true
  | .fail _ => false

/-- The first place at which two lists of one length differ, with the values there. -/
def firstDifference? (index : Nat) : List Int → List Int → Option (Nat × Int × Int)
  | a :: as, b :: bs => if a = b then firstDifference? (index + 1) as bs else some (index, a, b)
  | _, _ => none

namespace Transaction

def failure (t : Transaction) (difference : Difference) : Verdict :=
  .fail ⟨t.protocol, t.line, t.width, difference⟩

/-- The verdict on a single word. -/
def scoreWord (t : Transaction) (expected observed : Int) : Verdict :=
  if observed = expected then .pass
  else t.failure (.word t.address expected observed)

/-- The verdict on beats: as many as expected, and each as expected. -/
def scoreBeats (t : Transaction) (expected observed : List Int) : Verdict :=
  if observed.length ≠ expected.length then
    t.failure (.beatCount t.address expected.length observed.length)
  else match firstDifference? 0 expected observed with
    | none => .pass
    | some (index, wanted, seen) =>
      t.failure (.beat (t.beatAddress index) index wanted seen)

/-- The verdict on what a transaction observed, where it expects something. -/
def score (t : Transaction) (observed : Data) : Option Verdict :=
  t.expected.map fun expected => match expected, observed with
    | .word expected, .word observed => t.scoreWord expected observed
    | expected, observed => t.scoreBeats expected.toList observed.toList

end Transaction

/-- The verdict on a poll that made so many reads. -/
def Poll.score (poll : Poll) (observed : Option Int) (matched : Bool) (reads : Int) : Verdict :=
  if matched then .pass
  else .fail ⟨poll.protocol, poll.line, poll.width,
    .poll poll.address reads poll.expected poll.mask observed⟩

/-! ## Checks that cannot be scored -/

/-- Why a check has no verdict. -/
inductive ScoreFault
  /-- The beat that differs has no address. -/
  | noBeatAddress
  /-- The values that differ cannot be shown. -/
  | width (fault : Number.WidthFault)
  /-- One word was read, and a list is expected. -/
  | wordForBeats
  /-- Beats were read, and one word is expected. -/
  | beatsForWord
  /-- A word is expected, and none was read. -/
  | noWord
  /-- Something is expected, and no beats were read. -/
  | noBeats
  deriving DecidableEq, Repr

def ScoreFault.message : ScoreFault → String
  | .noBeatAddress => noAddress
  | .width fault => fault.message
  | .wordForBeats => "unsupported format string passed to tuple.__format__"
  | .beatsForWord => "'int' object is not iterable"
  | .noWord => "unsupported format string passed to NoneType.__format__"
  | .noBeats => "'NoneType' object is not iterable"

/-- The verdict, if it can be told: a failure has to show the address of its beat and its values. -/
def Verdict.checked (hasAddress : Bool) : Verdict → Except ScoreFault Verdict
  | .pass => .ok .pass
  | .fail failure => do
    let showsWords : Bool := match failure.difference with
      | .beatCount .. => false
      | _ => true
    if !hasAddress then throw .noBeatAddress
    if showsWords then (Number.checkWidth failure.width).mapError .width
    return .fail failure

/-- The verdict on the word that any transaction read, where it expects something. -/
def Transaction.assessWord (t : Transaction) (observed : Option Int) :
    Except ScoreFault (Option Verdict) :=
  match t.expected, observed with
  | none, _ => .ok none
  | some (.beats _), _ => .error .wordForBeats
  | some (.word expected), some observed => some <$> (t.scoreWord expected observed).checked true
  | some (.word _), none => do
    (Number.checkWidth t.width).mapError .width
    throw .noWord

/-- The verdict on the beats that any transaction read, where it expects something. -/
def Transaction.assessBeats (t : Transaction) (observed : Option (List Int)) :
    Except ScoreFault (Option Verdict) :=
  match t.expected, observed with
  | none, _ => .ok none
  | some (.word _), _ => .error .beatsForWord
  | some (.beats _), none => .error .noBeats
  | some (.beats expected), some observed =>
    let verdict := t.scoreBeats expected observed
    let hasAddress := match verdict with
      | .fail ⟨_, _, _, .beat _ index _ _⟩ => t.hasBeatAddress index
      | _ => true
    some <$> verdict.checked hasAddress

/-- The verdict on any poll that made so many reads. -/
def Poll.assess (poll : Poll) (observed : Option Int) (matched : Bool) (reads : Int) :
    Except ScoreFault Verdict :=
  (poll.score observed matched reads).checked true

/-! ## Counters -/

/-- The counters of a run. Script errors and preload timeouts are no checks. -/
structure Results where
  /-- Checks that passed or failed. -/
  total : Nat := 0
  passed : Nat := 0
  failed : Nat := 0
  /-- Script errors. -/
  errors : Nat := 0
  /-- Waits for a preload that ran into their bound. -/
  timeouts : Nat := 0
  /-- The script could not be read to its end. -/
  aborted : Bool := false
  /-- The message of the last failure. -/
  lastError : String := ""
  deriving DecidableEq, Repr

namespace Results

def recordPass (results : Results) : Results :=
  { results with total := results.total + 1, passed := results.passed + 1 }

def recordFail (results : Results) (message : String) : Results :=
  { results with
    total := results.total + 1
    failed := results.failed + 1
    lastError := message }

def recordError (results : Results) : Results :=
  { results with errors := results.errors + 1 }

def recordTimeout (results : Results) : Results :=
  { results with timeouts := results.timeouts + 1 }

/-- The script cannot be read on. -/
def abort (results : Results) (message : String) : Results :=
  { results with aborted := true, lastError := message }

/-- The counters after a check. -/
def record (results : Results) : Verdict → Results
  | .pass => results.recordPass
  | .fail failure => results.recordFail failure.message

/-- A run is fine if it read its script and no check failed, and in a strict run if there were no
script errors and no timeouts either. -/
def ok (results : Results) (strict : Bool) : Bool :=
  !results.aborted && results.failed = 0 &&
    !(strict && (0 < results.errors || 0 < results.timeouts))

/-- All counters in one line. -/
def summary (results : Results) : String :=
  s!"Results: total={results.total} passed={results.passed} failed={results.failed} "
    ++ s!"errors={results.errors} timeouts={results.timeouts}"

end Results

end BusScript
