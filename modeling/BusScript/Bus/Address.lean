import BusScript.Bus.Protocol
import BusScript.Number.Bits

/-!
# Beat addresses

The address of each beat of a burst. Addresses have 32 bits, so every address is taken modulo
2 ^ 32. The first beat is at the start address as given; the later beats of a rising burst are
aligned to the beat size, and those of a wrapping burst go round inside the container that holds the
start address.
-/

namespace BusScript

/-- An address cut to 32 bits. -/
def address32 (address : Int) : Int :=
  address % Int.pow 2 addressWidth

/-- The address of beat `index`, for beats of `beatBytes` bytes each. -/
def beatAddress (mode : Addressing) (start index beatBytes beats : Int) : Int :=
  if mode = .fixed ∨ index = 0 then address32 start
  else match mode with
    | .wrapping =>
      let container := beats * beatBytes
      let base := Number.bitClear start (container - 1)
      address32 (base + Int.fmod (start - base + index * beatBytes) container)
    | _ => address32 (Number.bitClear start (beatBytes - 1) + index * beatBytes)

/-- A wrapping burst without bytes has no address after its first. -/
def hasBeatAddress (mode : Addressing) (index beatBytes beats : Int) : Bool :=
  !(mode = .wrapping && index != 0 && beats * beatBytes == 0)

/-- What the lack of a beat address is reported with. -/
def noAddress : String := "integer modulo by zero"

end BusScript
