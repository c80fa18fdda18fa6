import BusScript.Score

/-!
# Trace records

One record for every command that was carried out. A bus command fills in address and burst; a wait
and a preload leave them out and describe themselves in the detail.
-/

namespace BusScript

/-- How a command came out. -/
inductive Status
  | done
  | pass
  | fail
  /-- Read, but not to be compared with what was expected. -/
  | unscored
  /-- The wait for an earlier preload ran into its bound. -/
  | timeout
  deriving DecidableEq, Repr

def Status.name : Status → String
  | .done => "done"
  | .pass => "pass"
  | .fail => "fail"
  | .unscored => "unscored"
  | .timeout => "timeout"

/-- What is kept of a command. Its values are as wide as the data, and all else may be missing. Its
texts are sequences of Unicode scalar values, which is all that a script in UTF-8 can hold: lone
surrogates, which a text in memory could hold as well, are left out. -/
structure TraceRecord where
  line : Option Int
  protocol : Option String
  operation : Option String := none
  address : Option Int := none
  burst : Option String := none
  size : Option String := none
  length : Option Int := some 0
  /-- The data width in bits, which says how values are written. -/
  width : Int := 32
  data : List Int := []
  expected : Option (List Int) := none
  status : Option String := some Status.done.name
  detail : Option String := none
  deriving DecidableEq, Repr

namespace TraceRecord

/-! ## Records of actions -/

/-- The record of a transaction that moved some data. -/
def ofTransaction (t : Transaction) (data : Option Data) (status : Status) : TraceRecord where
  line := t.line
  protocol := some t.protocol.name
  operation := some t.operation.name
  address := some t.address
  burst := some t.burst.name
  size := t.size.map AhbSize.name
  length := some t.length
  width := t.width
  data := (data.map Data.toList).getD []
  expected := t.expected.map Data.toList
  status := some status.name

/-- The record of a poll, which shows the word that was read last. -/
def ofPoll (poll : Poll) (observed : Option Int) (matched : Bool) (reads : Int) :
    TraceRecord where
  line := poll.line
  protocol := some poll.protocol.name
  operation := some Operation.poll.name
  address := some poll.address
  burst := match poll.bus with
    | .ahb => some AhbBurst.single.name
    | .axi => some AxiBurst.incr.name
  size := match poll.bus with
    | .ahb => some AhbSize.word.name
    | .axi => none
  width := poll.width
  data := observed.toList
  expected := some [poll.expected]
  status := some (if matched then Status.pass else Status.fail).name
  detail := some s!"mask={Number.formatHex poll.mask poll.width} reads={reads}"

def ofWait (wait : Wait) : TraceRecord where
  line := wait.line
  protocol := some Protocol.wait.name
  detail := some s!"cycles={wait.cycles}"

/-- The record of a preload; `completed` says that no wait before it ran into its bound. -/
def ofPreload (preload : Preload) (completed : Bool) : TraceRecord where
  line := preload.line
  protocol := some Protocol.preload.name
  status := some (if completed then Status.done else Status.timeout).name
  detail := some s!"{preload.target} <- {preload.dataFile}"

/-! ## Text -/

/-- The values of the record can be shown. -/
def checkWidth (record : TraceRecord) : Except Number.WidthFault Unit :=
  if record.data.isEmpty && (record.expected.getD []).isEmpty then .ok ()
  else Number.checkWidth record.width

/-- A value as wide as the record's data. -/
def hex (record : TraceRecord) (value : Int) : String :=
  Number.formatHex value record.width

/-- A name that may be missing. -/
def nameOrNone (name : Option String) : String :=
  name.getD "None"

/-- The record in one line, for the log. -/
def text (record : TraceRecord) : String :=
  let command := match record.address with
    | none => nameOrNone record.protocol
    | some address =>
      let data := " ".intercalate (record.data.map record.hex)
      let shape := match record.size with
        | some size => s!" size={size}"
        | none => s!" len={nameOrNone (record.length.map toString)}"
      s!"{nameOrNone record.protocol} {nameOrNone record.operation} addr={addressText address} "
        ++ s!"data=[{data}] burst={nameOrNone record.burst}{shape}"
  let described := match record.detail with
    | none => command
    | some detail => s!"{command} {detail}"
  match record.line with
  | none => described
  | some line => s!"line {line}: {described}"

/-! ## Fields -/

/-- A value in an exported record. -/
inductive Field
  | missing
  | number (value : Int)
  | text (value : String)
  | texts (values : List String)
  deriving DecidableEq, Repr

def Field.ofText? (text : Option String) : Field :=
  text.elim .missing .text

/-- The exported fields of a record, in their order. -/
def fields (record : TraceRecord) : List (String × Field) := [
  ("line", record.line.elim .missing .number),
  ("protocol", .ofText? record.protocol),
  ("operation", .ofText? record.operation),
  ("address", .ofText? (record.address.map (Number.paddedHex .small 8))),
  ("burst", .ofText? record.burst),
  ("size", .ofText? record.size),
  ("length", record.length.elim .missing .number),
  ("data", .texts (record.data.map record.hex)),
  ("expected", record.expected.elim .missing fun values => .texts (values.map record.hex)),
  ("status", .ofText? record.status),
  ("detail", .ofText? record.detail)]

end TraceRecord

/-! ## Writing -/

/-- Records in writing: the text so far, and how many of them are in it. -/
structure Trace.Written where
  text : String := ""
  count : Nat := 0

/-- One more record is written. -/
def Trace.Written.add (written : Written) (text : List Char) : Written where
  text := written.text ++ String.ofList text
  count := written.count + 1

end BusScript
