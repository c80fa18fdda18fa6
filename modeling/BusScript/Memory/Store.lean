import BusScript.Bus.Address
import Std.Data.TreeMap

/-!
# Byte store

A sparse memory of bytes behind 32-bit addresses. A byte that was never written reads as the fill.
Numbers are stored with their lowest byte first.
-/

namespace BusScript

/-- The byte of an integer at a place, the lowest byte being at place 0. A negative integer has
endlessly many ones in front. -/
def byteAt (value : Int) (place : Nat) : UInt8 :=
  UInt8.ofNat (value / Int.pow 256 place % 256).toNat

/-- The number that bytes make, the lowest byte first. -/
def ofBytes : List UInt8 → Nat
  | [] => 0
  | byte :: rest => byte.toNat + 256 * ofBytes rest

/-- A memory: the bytes that were written, by address, and what all other bytes read as. -/
structure Store where
  fill : UInt8 := 0
  bytes : Std.TreeMap Nat UInt8 := ∅

namespace Store

/-- A memory that nothing was written to, its bytes being the lowest byte of an integer. -/
def filled (fill : Int) : Store where
  fill := byteAt fill 0

/-- The cell of an address. -/
def cell (address : Int) : Nat :=
  (address32 address).toNat

/-- The byte at an address. -/
def byte (store : Store) (address : Int) : UInt8 :=
  store.bytes[cell address]?.getD store.fill

/-- The store with one byte written. -/
def put (store : Store) (address : Int) (value : UInt8) : Store :=
  { store with bytes := store.bytes.insert (cell address) value }

/-- The store with the lowest `count` bytes of a value written from an address on. -/
def write (store : Store) (address value : Int) (count : Nat) : Store :=
  (List.range count).foldl (fun store (i : Nat) => store.put (address + i) (byteAt value i)) store

/-- The number that the `count` bytes from an address on make. -/
def read (store : Store) (address : Int) (count : Nat) : Nat :=
  ofBytes ((List.range count).map fun (i : Nat) => store.byte (address + i))

/-- How many bytes have been written. -/
def size (store : Store) : Nat :=
  store.bytes.size

/-- The written bytes as runs of neighbours: the first address of each and its bytes. -/
def runs (store : Store) : List (Nat × List UInt8) :=
  store.bytes.toList.foldr (fun (address, byte) runs => match runs with
    | (first, bytes) :: rest =>
      if first = address + 1 then (address, byte :: bytes) :: rest
      else (address, [byte]) :: runs
    | [] => [(address, [byte])]) []

end Store

end BusScript
