/-!
# Doubles from exact quotients

The double nearest to a quotient of naturals, ties going to the even neighbour, and the quotient
that a double stands for. Both are exact: a double is a natural times a power of two, and rounding
is division of naturals.
-/

namespace BusScript.Number.Binary64

/-- The natural nearest to a quotient; of two equally near, the even one. -/
def roundHalfEven (num den : Nat) : Nat :=
  let q := num / den
  let r := num % den
  if 2 * r < den then q
  else if den < 2 * r then q + 1
  else q + q % 2

/-- The bits of infinity. -/
def infinityBits : Nat := 0x7FF <<< 52

/-- The bits of the double nearest to a quotient; a quotient beyond the largest double gives the
bits of infinity. A double's unit is a power of two, no less than 2 ^ -1074, for which the quotient
has 53 bits; the bits are the count of units on top of the unit's rank, so a count that rounds up to
54 bits carries into the rank. -/
def nearestBits (num den : Nat) : Nat :=
  if num = 0 ∨ den = 0 then 0
  else
    let estimate : Int := (num.log2 : Int) - den.log2
    let below : Bool :=
      if 0 ≤ estimate then num < den <<< estimate.toNat else num <<< (-estimate).toNat < den
    let unit := max (-1074) (if below then estimate - 53 else estimate - 52)
    let count :=
      if 0 ≤ unit then roundHalfEven num (den <<< unit.toNat)
      else roundHalfEven (num <<< (-unit).toNat) den
    min infinityBits ((unit + 1074).toNat <<< 52 + count)

/-- The double nearest to a quotient. -/
def nearest (negative : Bool) (num den : Nat) : Float :=
  Float.ofBits (UInt64.ofNat (nearestBits num den + if negative then 1 <<< 63 else 0))

/-- The double nearest to an integer. -/
def ofInt (n : Int) : Float :=
  nearest (n < 0) n.natAbs 1

/-- The sign bit of a double. -/
def isNegative (x : Float) : Bool :=
  1 <<< 63 ≤ x.toBits.toNat

/-- The size of a finite double as a count of units and the exponent of the unit, a power of two. -/
def units (x : Float) : Nat × Int :=
  let bits : Nat := x.toBits.toNat % (1 <<< 63)
  let rank : Nat := bits >>> 52
  let fraction : Nat := bits % (1 <<< 52)
  if rank = 0 then (fraction, -1074) else (1 <<< 52 + fraction, (rank : Int) - 1075)

end BusScript.Number.Binary64
