import BusScript.Number.Integer
import BusScript.Number.Binary64

/-!
# Decimal numbers

Doubles in decimal. A double is written with the fewest digits that read back as it, the nearest of
those; a point is always shown, and an exponent where the first digit stands for less than 0.0001 or
for ten to the sixteenth or more. Reading accepts a sign, digits with a point and an exponent, and
the words for infinity and for no number.
-/

namespace BusScript.Number.Decimal

open BusScript.Number.Binary64

/-! ## Shortest digits -/

/-- Twice the size of a double and twice the bounds of the reals that round to it, over one common
denominator, and whether the bounds themselves round to it. -/
structure Interval where
  low : Nat
  value : Nat
  high : Nat
  den : Nat
  closed : Bool

/-- The reals that round to a positive double of `count` units of two to the `exponent`. Below a
power of two the neighbour is half as far away, but for the smallest unit. -/
def interval (count : Nat) (exponent : Int) : Interval :=
  let lowGap := if count = 1 <<< 52 ∧ -1074 < exponent then 1 else 2
  let scale := if 0 ≤ exponent then 1 <<< exponent.toNat else 1
  { low := (4 * count - lowGap) * scale
    value := 4 * count * scale
    high := (4 * count + 2) * scale
    den := 4 * if 0 ≤ exponent then 1 else 1 <<< (-exponent).toNat
    closed := count % 2 = 0 }

/-- A natural times a power of ten, as a quotient of naturals. -/
def tens (n : Nat) (exponent : Int) : Nat × Nat :=
  if 0 ≤ exponent then (n * Nat.pow 10 exponent.toNat, 1) else (n, Nat.pow 10 (-exponent).toNat)

/-- A point of a decimal grid reads back as the double. -/
def Interval.holds (i : Interval) (n : Nat) (exponent : Int) : Bool :=
  let (num, den) := tens n exponent
  let point := num * i.den
  if i.closed then i.low * den ≤ point && point ≤ i.high * den
  else i.low * den < point && point < i.high * den

/-- The exponent of ten of the first digit of a positive quotient. -/
def leadingExponent (num den : Nat) : Int :=
  let guess : Int := ((num.log2 : Int) - den.log2) * 30103 / 100000
  let reaches (k : Int) : Bool :=
    let (n, d) := tens 1 k
    n * den ≤ num * d
  if reaches (guess + 2) then guess + 2
  else if reaches (guess + 1) then guess + 1
  else if reaches guess then guess
  else guess - 1

/-- The point of the grid of `digits` digits that reads back as the double and is nearest to it,
where there is one: the grid's neighbours of the value are the candidates. -/
def Interval.onGrid? (i : Interval) (digits : Nat) : Option (Nat × Int) :=
  let exponent := leadingExponent i.value i.den - (digits : Int) + 1
  let (unitNum, unitDen) := tens 1 exponent
  let below := i.value * unitDen / (i.den * unitNum)
  let rest := i.value * unitDen % (i.den * unitNum)
  let candidates :=
    if 2 * rest < i.den * unitNum ∨ (2 * rest = i.den * unitNum ∧ below % 2 = 0) then
      [below, below + 1]
    else [below + 1, below]
  (candidates.find? fun n => i.holds n exponent).map (·, exponent)

/-- A natural without its trailing zeros, and how many of them there were. -/
def dropZeros : Nat → Nat → Int → Nat × Int
  | 0, n, exponent => (n, exponent)
  | fuel + 1, n, exponent =>
    if n % 10 = 0 ∧ n ≠ 0 then dropZeros fuel (n / 10) (exponent + 1) else (n, exponent)

/-- The fewest digits that read back as a positive double, as a natural and an exponent of ten. A
grid of seventeen digits always has one. -/
def shortest (count : Nat) (exponent : Int) : Nat × Int :=
  let i := interval count exponent
  match (List.range 17).findSome? fun k => i.onGrid? (k + 1) with
  | some (n, e) => dropZeros 20 n e
  | none => (0, 0)

/-! ## Writing -/

/-- Digits with a point where the value of the first digit is ten to the `lead`, or with an exponent
where the point would stand too far away. -/
def place (digits : List Char) (lead : Int) : List Char :=
  if lead < -4 ∨ 16 ≤ lead then
    let fraction := match digits.drop 1 with
      | [] => []
      | more => '.' :: more
    let size := (toString lead.natAbs).toList
    let padded := if size.length < 2 then '0' :: size else size
    digits.take 1 ++ fraction ++ 'e' :: (if lead < 0 then '-' else '+') :: padded
  else if lead < 0 then
    '0' :: '.' :: List.replicate (-lead - 1).toNat '0' ++ digits
  else
    let whole := lead.toNat + 1
    let fraction := digits.drop whole
    digits.take whole ++ List.replicate (whole - digits.length) '0' ++
      '.' :: if fraction.isEmpty then ['0'] else fraction

/-- A double in decimal. -/
def write (x : Float) : String :=
  if x.isNaN then "nan"
  else
    let sign := if isNegative x then ['-'] else []
    let text :=
      if x.isInf then ['i', 'n', 'f']
      else match units x with
        | (0, _) => ['0', '.', '0']
        | (count, exponent) =>
          let (n, e) := shortest count exponent
          let digits := (toString n).toList
          place digits (e + digits.length - 1)
    String.ofList (sign ++ text)

/-! ## Reading -/

/-- The double nearest to a natural times a power of ten. Sizes that are surely beyond the doubles
on either side are settled by their digits alone. -/
def nearestDecimal (negative : Bool) (n : Nat) (exponent : Int) : Float :=
  let lead := exponent + (toString n).length
  if n = 0 ∨ lead < -330 then nearest negative 0 1
  else if 320 < lead then nearest negative (1 <<< 1100) 1
  else
    let (num, den) := tens n exponent
    nearest negative num den

/-- Underscores may stand between two digits and nowhere else; the text without them. -/
def dropUnderscores? (text : List Char) : Option (List Char) :=
  let groups := text.splitOn '_'
  let isDigit (c : Char) : Bool := c.isDigit
  let seams := (groups.zip groups.tail).all fun (left, right) =>
    left.getLast?.any isDigit && right.head?.any isDigit
  if seams then some groups.flatten else none

/-- The digits at the front of a text and the rest. -/
def spanDigits (text : List Char) : List Nat × List Char :=
  ((text.takeWhile Char.isDigit).map fun c => c.toNat - 48, text.dropWhile Char.isDigit)

/-- The exponent that a text spells after its mark, where it is one. -/
def readExponent? : List Char → Option Int
  | [] => some 0
  | mark :: rest =>
    if mark = 'e' ∨ mark = 'E' then
      let (negative, digits) := splitSign rest
      match spanDigits digits with
      | ([], _) => none
      | (values, []) =>
        let n := ofDigits 10 values
        some (if negative then -(n : Int) else n)
      | _ => none
    else none

/-- The double that an unsigned numeral spells. -/
def readUnsigned? (negative : Bool) (text : List Char) : Option Float :=
  let lower := text.map fun c => if 'A' ≤ c ∧ c ≤ 'Z' then Char.ofNat (c.toNat + 32) else c
  if lower = "inf".toList ∨ lower = "infinity".toList then
    some (Float.ofBits (UInt64.ofNat (infinityBits + if negative then 1 <<< 63 else 0)))
  else if lower = "nan".toList then some (0.0 / 0.0)
  else
    let (whole, afterWhole) := spanDigits text
    let (fraction, afterFraction) := match afterWhole with
      | '.' :: rest => spanDigits rest
      | rest => ([], rest)
    if whole.isEmpty && fraction.isEmpty then none
    else do
      let exponent ← readExponent? afterFraction
      return nearestDecimal negative (ofDigits 10 (whole ++ fraction))
        (exponent - fraction.length)

/-- The double that a text spells. -/
def read? (text : String) : Option Float := do
  let plain ← dropUnderscores? (trimNumeral text)
  let (negative, unsigned) := splitSign plain
  readUnsigned? negative unsigned

end BusScript.Number.Decimal
