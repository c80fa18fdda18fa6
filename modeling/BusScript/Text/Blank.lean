/-!
# White space

The Unicode white space class, and the three things scripts do with it: a text is cut into words at
runs of white space, its last word is cut off at the white space in front of it, and a text is
trimmed of a class of characters at both ends.
-/

namespace BusScript.Text

/-- White space: U+0009 to U+000D, U+001C to U+0020, and the blanks beyond ASCII. -/
def isBlank (c : Char) : Bool :=
  let n := c.toNat
  (9 ≤ n && n ≤ 13) || (28 ≤ n && n ≤ 32) || n == 0x85 || n == 0xA0 || n == 0x1680 ||
    (0x2000 ≤ n && n ≤ 0x200A) || n == 0x2028 || n == 0x2029 || n == 0x202F || n == 0x205F ||
    n == 0x3000

/-- The words of a text: what stands between its white space, in order, none of it empty. -/
def words (text : List Char) : List (List Char) :=
  (text.splitOnP isBlank).filter fun word => !word.isEmpty

/-- A text without the characters of a class at its end. -/
def trimEnd (drop : Char → Bool) (text : List Char) : List Char :=
  (text.reverse.dropWhile drop).reverse

/-- A text without the characters of a class at either end. -/
def trim (drop : Char → Bool) (text : List Char) : List Char :=
  trimEnd drop (text.dropWhile drop)

/-- The text is one word and nothing else; a line feed may follow it. -/
def isLastWord (text : List Char) : Bool :=
  let rest := text.dropWhile fun c => !isBlank c
  (rest.isEmpty || rest == ['\n']) && !(text.takeWhile fun c => !isBlank c).isEmpty

/-- The length of white space in front of a text that has the last word right behind it. The longest
one comes first. -/
def gapAhead? (text : List Char) : Option Nat :=
  let lengths := List.range' 1 (text.takeWhile isBlank).length
  lengths.reverse.find? fun length => isLastWord (text.drop length)

/-- A text cut at the first white space that has the last word right behind it, and which goes with
neither part; `none` where there is no such white space. -/
def cutLastGap : List Char → Option (List Char × List Char)
  | [] => none
  | c :: rest => match gapAhead? (c :: rest) with
    | some length => some ([], (c :: rest).drop length)
    | none => (cutLastGap rest).map fun (before, last) => (c :: before, last)

theorem cutLastGap_cons (c : Char) (rest : List Char) :
    cutLastGap (c :: rest) = match gapAhead? (c :: rest) with
      | some length => some ([], (c :: rest).drop length)
      | none => (cutLastGap rest).map fun (before, last) => (c :: before, last) := by
  rfl

end BusScript.Text
