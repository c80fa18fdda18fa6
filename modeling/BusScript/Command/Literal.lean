import BusScript.Command.Error

/-!
# Literals

The two kinds of number in a command: hexadecimal words of a given width, with an optional `0x` and
underscores anywhere, and plain decimal counts.
-/

namespace BusScript

/-- The digits of a hexadecimal literal: without `0x` or `0X` in front and without underscores. -/
def hexLiteralDigits (text : List Char) : List Char :=
  let digits := match text with
    | '0' :: 'x' :: rest | '0' :: 'X' :: rest => rest
    | rest => rest
  digits.filter (· != '_')

/-- The value of a hexadecimal literal for a field of so many bits. It has at least one digit and
no more than the field holds, four bits each; a field of negative width holds none. What is read is
cut to the bits of the field. -/
def parseUnsigned (text : String) (width : Int) : Except Cause Nat :=
  let digits := hexLiteralDigits text.toList
  if digits.isEmpty then .error (.malformedHex text)
  else if width / 4 < digits.length then .error (.tooWide width text)
  else match Number.ofHex? digits with
    | some value => .ok (value &&& ((1 <<< width.toNat) - 1))
    | none => .error (.malformedHex text)

/-- A decimal count, of ASCII digits only. -/
def parseCount (text what : String) (maximum : Option Int) : Except CommandFault Nat :=
  let digits := text.toList
  if digits.isEmpty || !digits.all Char.isDigit then
    .error (.ofCause (.malformedCount what text))
  else if Number.digitLimit < digits.length then .error (.countTooLong digits.length)
  else
    let count := Number.ofDigits 10 (digits.map fun c => c.toNat - 48)
    match maximum with
    | some most =>
      if most < count then .error (.ofCause (.countAbove what most text)) else .ok count
    | none => .ok count

end BusScript
