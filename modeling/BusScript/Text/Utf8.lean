import BusScript.Text.Quoted

/-!
# UTF-8

Texts as bytes and back. Decoding gives the characters up to the first byte that fits nowhere and
says how the bytes end: complete, inside a character that more bytes could finish, or at a fault.
A fault names the bytes of the character that broke off, so a wrong second byte blames the first
byte alone and a wrong third byte blames the first two. The first two bytes of a surrogate count as
unfinished when nothing follows them, although no third byte makes them a character.
-/

namespace BusScript.Text.Utf8

/-- The bytes of a text. -/
def encode (text : List Char) : List UInt8 :=
  text.flatMap String.utf8EncodeChar

/-- What is wrong with bytes that are no text. -/
inductive Defect
  /-- No character starts with this byte. -/
  | startByte
  /-- The byte that follows does not continue the character. -/
  | continuationByte
  /-- The bytes end inside a character. -/
  | endOfData
  deriving DecidableEq, Repr

/-- The first place where bytes are no text. -/
structure Fault where
  /-- The number of bytes before the character that broke off. -/
  offset : Nat
  /-- The bytes of that character. -/
  bytes : List UInt8
  defect : Defect
  deriving DecidableEq, Repr

def Defect.message : Defect → String
  | .startByte => "invalid start byte"
  | .continuationByte => "invalid continuation byte"
  | .endOfData => "unexpected end of data"

/-- A single byte is shown with its place, several bytes with the places of the first and last. -/
def Fault.message (fault : Fault) : String :=
  let place := match fault.bytes with
    | [byte] => s!"byte 0x{String.ofList (hexField 2 byte.toNat)} in position {fault.offset}"
    | bytes => s!"bytes in position {fault.offset}-{fault.offset + bytes.length - 1}"
  s!"'utf-8' codec can't decode {place}: {fault.defect.message}"

/-- How decoded bytes end. -/
inductive Ending
  | complete
  /-- The last bytes start a character that they do not finish; the fault that they are if no more
  bytes come. -/
  | unfinished (bytes : List UInt8) (fault : Fault)
  | broken (fault : Fault)
  deriving DecidableEq, Repr

/-- What the first byte of a character of several bytes promises: how many bytes follow and between
which bounds the first of them lies. The bounds shut out overlong forms, surrogates and numbers
beyond the last character. -/
def promise? (byte : Nat) : Option (Nat × Nat × Nat) :=
  if byte < 0xC2 then none
  else if byte < 0xE0 then some (1, 0x80, 0xBF)
  else if byte = 0xE0 then some (2, 0xA0, 0xBF)
  else if byte = 0xED then some (2, 0x80, 0x9F)
  else if byte < 0xF0 then some (2, 0x80, 0xBF)
  else if byte = 0xF0 then some (3, 0x90, 0xBF)
  else if byte < 0xF4 then some (3, 0x80, 0xBF)
  else if byte = 0xF4 then some (3, 0x80, 0x8F)
  else none

/-- The characters of the bytes and their ending, `offset` bytes having gone before. -/
def decodeFrom (offset : Nat) : List UInt8 → List Char × Ending
  | [] => ([], .complete)
  | a :: afterA =>
    let broken (bytes : List UInt8) (defect : Defect) : List Char × Ending :=
      ([], .broken ⟨offset, bytes, defect⟩)
    let unfinished (bytes : List UInt8) : List Char × Ending :=
      ([], .unfinished bytes ⟨offset, bytes, .endOfData⟩)
    let next (scalar : Nat) (rest : List Char × Ending) : List Char × Ending :=
      (Char.ofNat scalar :: rest.1, rest.2)
    let isTail (byte : UInt8) : Bool := 0x80 ≤ byte.toNat && byte.toNat ≤ 0xBF
    if a.toNat < 0x80 then next a.toNat (decodeFrom (offset + 1) afterA)
    else match promise? a.toNat with
      | none => broken [a] .startByte
      | some (count, low, high) => match afterA with
        | [] => unfinished [a]
        | b :: afterB =>
          if b.toNat < low || high < b.toNat then
            if a.toNat = 0xED && isTail b && afterB.isEmpty then
              ([], .unfinished [a, b] ⟨offset, [a], .continuationByte⟩)
            else broken [a] .continuationByte
          else if count = 1 then
            next (a.toNat % 32 * 64 + b.toNat % 64) (decodeFrom (offset + 2) afterB)
          else match afterB with
            | [] => unfinished [a, b]
            | c :: afterC =>
              if !isTail c then broken [a, b] .continuationByte
              else if count = 2 then
                next (a.toNat % 16 * 4096 + b.toNat % 64 * 64 + c.toNat % 64)
                  (decodeFrom (offset + 3) afterC)
              else match afterC with
                | [] => unfinished [a, b, c]
                | d :: afterD =>
                  if !isTail d then broken [a, b, c] .continuationByte
                  else next
                    (a.toNat % 8 * 262144 + b.toNat % 64 * 4096 + c.toNat % 64 * 64 + d.toNat % 64)
                    (decodeFrom (offset + 4) afterD)

/-- The characters of the bytes up to the first fault, and how the bytes end. -/
def decode (bytes : List UInt8) : List Char × Ending :=
  decodeFrom 0 bytes

/-- All the characters of the bytes; no more bytes come, so an unfinished character is a fault. -/
def decodeAll (bytes : List UInt8) : Except Fault (List Char) :=
  match decode bytes with
  | (text, .complete) => .ok text
  | (_, .unfinished _ fault) | (_, .broken fault) => .error fault

end BusScript.Text.Utf8
