import BusScript.Text.Digit
import BusScript.Number.Hex

/-!
# Integer literals of settings and images

An integer as people write it in a setting or in a memory image: blanks around it, one sign, digits
of any script, single underscores between digits. In base sixteen a `0x`, which one underscore may
follow, may stand before the digits.

A text that is all ASCII is read as it stands, and its blanks are tab to carriage return and the
space. In any other text the digits of other scripts read as ASCII digits and the blanks beyond
ASCII as spaces, while ASCII characters still stand for themselves.
-/

namespace BusScript.Number

open BusScript.Text

/-- The base of an integer literal. -/
inductive Base
  | ten
  | sixteen
  deriving DecidableEq, Repr

def Base.value : Base → Nat
  | .ten => 10
  | .sixteen => 16

/-- Why a text is no integer. -/
inductive IntegerFault
  | malformed
  /-- A decimal number has more digits than the limit of 4300. -/
  | tooLong (digits : Nat)
  deriving DecidableEq, Repr

/-- The most digits a decimal number may have, leading zeros included. -/
def digitLimit : Nat := 4300

def tooManyDigits (digits : Nat) : String :=
  s!"Exceeds the limit ({digitLimit} digits) for integer string conversion: "
    ++ s!"value has {digits} digits; use sys.set_int_max_str_digits() to increase the limit"

/-- The blanks around a number, all of them ASCII. -/
def isNumberBlank (c : Char) : Bool :=
  (9 ≤ c.toNat && c.toNat ≤ 13) || c.toNat == 32

/-- The blanks beyond ASCII. -/
def isWideBlank (c : Char) : Bool :=
  let n := c.toNat
  n == 0x85 || n == 0xA0 || n == 0x1680 || (0x2000 ≤ n && n ≤ 0x200A) || n == 0x2028 ||
    n == 0x2029 || n == 0x202F || n == 0x205F || n == 0x3000

/-- A character of a number in ASCII: digits and blanks of other scripts become ASCII ones, and
what no number can hold becomes a question mark. -/
def asciiNumeral (c : Char) : Char :=
  if c.toNat < 127 then c
  else if isWideBlank c then ' '
  else match digitValue? c with
    | some digit => Char.ofNat (48 + digit)
    | none => '?'

/-- A number's text in ASCII without the blanks around it. -/
def trimNumeral (text : String) : List Char :=
  let cs := (text.toList.map asciiNumeral).dropWhile isNumberBlank
  (cs.reverse.dropWhile isNumberBlank).reverse

/-- The sign of a numeral and what follows it. -/
def splitSign : List Char → Bool × List Char
  | '-' :: rest => (true, rest)
  | '+' :: rest => (false, rest)
  | rest => (false, rest)

def digitOf? (base : Base) (c : Char) : Option Nat :=
  match hexDigit? c with
  | some digit => if digit < base.value then some digit else none
  | none => none

/-- Digits with single underscores between them: the digit values, where the text is all of that
and has at least one digit. -/
def groupedDigits? (base : Base) (text : List Char) : Option (List Nat) :=
  (text.splitOn '_').foldr (fun group rest => do
    let digits ← group.mapM (digitOf? base)
    if digits.isEmpty then none else return digits ++ (← rest)) (some [])

/-- The digits of a base-sixteen numeral, without the `0x` and the underscore that may precede
them. -/
def dropHexMark : List Char → List Char
  | '0' :: x :: rest =>
    if x = 'x' ∨ x = 'X' then
      match rest with
      | '_' :: digits => digits
      | digits => digits
    else '0' :: x :: rest
  | text => text

/-- The integer that a text spells. The digits up to the first character that is neither digit nor
underscore are counted against the limit before what follows them is looked at. -/
def readInteger (base : Base) (text : String) : Except IntegerFault Int :=
  let (negative, unsigned) := splitSign (trimNumeral text)
  let marked := if base = .sixteen then dropHexMark unsigned else unsigned
  let inRun (c : Char) : Bool := (digitOf? base c).isSome || c == '_'
  match groupedDigits? base (marked.takeWhile inRun) with
  | none => .error .malformed
  | some digits =>
    if base = .ten ∧ digitLimit < digits.length then .error (.tooLong digits.length)
    else if !(marked.dropWhile inRun).isEmpty then .error .malformed
    else
      let n := ofDigits base.value digits
      .ok (if negative then -(n : Int) else n)

end BusScript.Number
