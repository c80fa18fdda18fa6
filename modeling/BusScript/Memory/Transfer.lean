import BusScript.Action
import BusScript.Memory.Store

/-!
# Transfers on a store

What a bus transfer does to a memory. Each beat moves the lowest bytes of its word, as many as the
transfer size or the data width says, at the address that the burst kind gives the beat. A transfer
of no bytes, or of less than none, moves nothing.
-/

namespace BusScript

/-- The bytes of one beat, on a bus that is `width` bits wide: those of the transfer size on AHB, a
word where it is left open, and the whole width on AXI. An AHB transfer may also give its size as a
power of two, which is not to be negative. -/
def Burst.beatBytes? (burst : Burst) (width : Int) (shape : Shape) : Option Int :=
  match burst, shape with
  | .axi _, _ => some (width / 8)
  | .ahb _, .size none => some AhbSize.word.bytes
  | .ahb _, .size (some size) => some size.bytes
  | .ahb _, .length exponent => if exponent < 0 then none else some (Int.pow 2 exponent.toNat)

/-- Every beat of a burst has an address: its first beat always has one, and the others do if the
second does. -/
def Burst.hasAddresses (burst : Burst) (beatBytes : Int) (beats : Nat) : Bool :=
  beats ≤ 1 || hasBeatAddress burst.addressing 1 beatBytes beats

namespace Store

/-- The store with the words of a burst written, in beat order. -/
def writeBeats (store : Store) (burst : Burst) (address beatBytes : Int) (words : List Int) :
    Store :=
  words.zipIdx.foldl (fun store (word, i) =>
    store.write (beatAddress burst.addressing address i beatBytes words.length) word
      beatBytes.toNat)
    store

/-- The words that a burst of so many beats reads. -/
def readBeats (store : Store) (burst : Burst) (address beatBytes : Int) (beats : Nat) :
    List Int :=
  (List.range beats).map fun (i : Nat) =>
    store.read (beatAddress burst.addressing address i beatBytes beats) beatBytes.toNat

end Store

end BusScript
