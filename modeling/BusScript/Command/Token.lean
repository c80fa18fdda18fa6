import BusScript.Text.Blank

/-!
# Tokens

A command line is cut into tokens at white space. A line whose first word is exactly `PRELOAD` is
cut into three at most: the keyword, the data file, which is the last word, and what stands between
them, whose inner white space is kept.
-/

namespace BusScript

open BusScript.Text

/-- The keyword that starts a preload line in its own notation. -/
def preloadKeyword : List Char := "PRELOAD".toList

/-- The tokens of a preload line, given what follows the keyword. -/
def preloadTokens (remainder : List Char) : List (List Char) :=
  match trim isBlank remainder with
  | [] => [preloadKeyword]
  | arguments => match cutLastGap arguments with
    | none => [preloadKeyword, arguments]
    | some (target, file) => [preloadKeyword, target, file]

/-- The tokens of a line. -/
def tokenize (line : String) : List String :=
  let text := line.toList.dropWhile isBlank
  let tokens :=
    if text.takeWhile (fun c => !isBlank c) = preloadKeyword then
      preloadTokens (text.dropWhile fun c => !isBlank c)
    else words text
  tokens.map String.ofList

end BusScript
