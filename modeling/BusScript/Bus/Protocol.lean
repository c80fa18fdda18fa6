/-!
# Protocols, operations and bursts

The families of commands, the two buses among them, what can be done on a bus, and the kinds of
burst, with the names that scripts and traces use for them.
-/

namespace BusScript

/-- The buses a script can drive. -/
inductive Bus
  | ahb
  | axi
  deriving DecidableEq, Repr

/-- The families of commands: those of a bus and the two that need none. -/
inductive Protocol
  | bus (bus : Bus)
  | wait
  | preload
  deriving DecidableEq, Repr

/-- What a command does on a bus. -/
inductive Operation
  | write
  | read
  | burstWrite
  | burstRead
  | poll
  deriving DecidableEq, Repr

/-- The kinds of an AHB burst. -/
inductive AhbBurst
  | single
  | incr
  | wrap4
  | incr4
  | wrap8
  | incr8
  | wrap16
  | incr16
  deriving DecidableEq, Repr

/-- The sizes of an AHB transfer. -/
inductive AhbSize
  | byte
  | halfword
  | word
  deriving DecidableEq, Repr

/-- The kinds of an AXI burst. -/
inductive AxiBurst
  | fixed
  | incr
  | wrap
  deriving DecidableEq, Repr

/-- A burst kind of either bus. -/
inductive Burst
  | ahb (kind : AhbBurst)
  | axi (kind : AxiBurst)
  deriving DecidableEq, Repr

/-! ## Names -/

def Bus.name : Bus → String
  | .ahb => "AHB"
  | .axi => "AXI"

def Protocol.name : Protocol → String
  | .bus b => b.name
  | .wait => "WAIT"
  | .preload => "PRELOAD"

def Operation.name : Operation → String
  | .write => "WRITE"
  | .read => "READ"
  | .burstWrite => "BURST_WRITE"
  | .burstRead => "BURST_READ"
  | .poll => "POLL"

def AhbBurst.name : AhbBurst → String
  | .single => "SINGLE"
  | .incr => "INCR"
  | .wrap4 => "WRAP4"
  | .incr4 => "INCR4"
  | .wrap8 => "WRAP8"
  | .incr8 => "INCR8"
  | .wrap16 => "WRAP16"
  | .incr16 => "INCR16"

def AhbSize.name : AhbSize → String
  | .byte => "BYTE"
  | .halfword => "HALFWORD"
  | .word => "WORD"

def AxiBurst.name : AxiBurst → String
  | .fixed => "FIXED"
  | .incr => "INCR"
  | .wrap => "WRAP"

def Burst.name : Burst → String
  | .ahb kind => kind.name
  | .axi kind => kind.name

/-! ## All of each -/

def Protocol.all : List Protocol := [.bus .ahb, .bus .axi, .wait, .preload]

def Operation.all : List Operation := [.write, .read, .burstWrite, .burstRead, .poll]

def AhbBurst.all : List AhbBurst :=
  [.single, .incr, .wrap4, .incr4, .wrap8, .incr8, .wrap16, .incr16]

def AhbSize.all : List AhbSize := [.byte, .halfword, .word]

def AxiBurst.all : List AxiBurst := [.fixed, .incr, .wrap]

/-! ## Geometry -/

/-- The bus a burst kind belongs to. -/
def Burst.bus : Burst → Bus
  | .ahb _ => .ahb
  | .axi _ => .axi

/-- The bytes of one transfer. -/
def AhbSize.bytes : AhbSize → Nat
  | .byte => 1
  | .halfword => 2
  | .word => 4

/-- The number that stands for a size on the bus: its bytes are two to that power. -/
def AhbSize.code : AhbSize → Nat
  | .byte => 0
  | .halfword => 1
  | .word => 2

/-- The number of beats a kind fixes; `incr` leaves it open. -/
def AhbBurst.beats? : AhbBurst → Option Nat
  | .single => some 1
  | .incr => none
  | .wrap4 | .incr4 => some 4
  | .wrap8 | .incr8 => some 8
  | .wrap16 | .incr16 => some 16

/-- How the addresses of a burst's beats follow each other. -/
inductive Addressing
  /-- Every beat is at the start address. -/
  | fixed
  /-- The beats go round inside an aligned container as long as the burst. -/
  | wrapping
  /-- The beats follow the aligned start address. -/
  | rising
  deriving DecidableEq, Repr

def Burst.addressing : Burst → Addressing
  | .ahb .wrap4 | .ahb .wrap8 | .ahb .wrap16 | .axi .wrap => .wrapping
  | .axi .fixed => .fixed
  | _ => .rising

/-- The width of an address, in bits. -/
def addressWidth : Nat := 32

/-- The width of AHB data, in bits. -/
def ahbWidth : Nat := 32

/-- The widths that AXI data can have. -/
inductive AxiWidth
  | w64
  | w128
  deriving DecidableEq, Repr

def AxiWidth.bits : AxiWidth → Nat
  | .w64 => 64
  | .w128 => 128

/-- The AXI width of so many bits. -/
def AxiWidth.ofBits? (bits : Int) : Option AxiWidth :=
  if bits = 64 then some .w64 else if bits = 128 then some .w128 else none

end BusScript
