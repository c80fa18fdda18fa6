/-!
# Hexadecimal numbers

Reading and writing hexadecimal digits. Written numbers have a `0x` in front and are padded with
zeros to the digits of their width, a sign counting as one digit; a number too wide for its width
keeps all its digits.
-/

namespace BusScript.Number

/-- The value of an ASCII hexadecimal digit. -/
def hexDigit? (c : Char) : Option Nat :=
  if '0' ≤ c ∧ c ≤ '9' then some (c.toNat - 48)
  else if 'a' ≤ c ∧ c ≤ 'f' then some (c.toNat - 87)
  else if 'A' ≤ c ∧ c ≤ 'F' then some (c.toNat - 55)
  else none

/-- The number that digit values spell in a base, the first digit being the highest. -/
def ofDigits (base : Nat) (digits : List Nat) : Nat :=
  digits.foldl (fun n digit => n * base + digit) 0

/-- The number that hexadecimal digits spell, where all of them are digits. -/
def ofHex? (text : List Char) : Option Nat :=
  (text.mapM hexDigit?).map (ofDigits 16)

/-- The digits that letters stand for are written in capitals or in small letters. -/
inductive LetterCase
  | capital
  | small
  deriving DecidableEq, Repr

/-- A hexadecimal digit below sixteen. -/
def hexDigit (letters : LetterCase) (digit : Nat) : Char :=
  if digit < 10 then Char.ofNat (48 + digit)
  else Char.ofNat ((match letters with | .capital => 55 | .small => 87) + digit)

/-- The hexadecimal digits of a number without leading zeros; zero has one digit. -/
def hexDigits (letters : LetterCase) (n : Nat) : List Char :=
  if n < 16 then [hexDigit letters n]
  else hexDigits letters (n / 16) ++ [hexDigit letters (n % 16)]

/-- A number after `0x`, padded with zeros to `count` places, of which a sign takes one. -/
def paddedHex (letters : LetterCase) (count : Nat) (value : Int) : String :=
  let sign := if value < 0 then ['-'] else []
  let digits := hexDigits letters value.natAbs
  let zeros := List.replicate (count - sign.length - digits.length) '0'
  String.ofList ('0' :: 'x' :: sign ++ zeros ++ digits)

/-- A value of a field `width` bits wide: one capital digit for every four bits. A negative width
counts as none. -/
def formatHex (value width : Int) : String :=
  paddedHex .capital (width / 4).toNat value

/-- A value cannot be shown in a field of negative width. -/
structure WidthFault where
  width : Int
  deriving DecidableEq, Repr

def WidthFault.message (fault : WidthFault) : String :=
  s!"Invalid format specifier '0{fault.width / 4}X' for object of type 'int'"

/-- Fields of this width can be shown. -/
def checkWidth (width : Int) : Except WidthFault Unit :=
  if width < 0 then .error ⟨width⟩ else .ok ()

end BusScript.Number
