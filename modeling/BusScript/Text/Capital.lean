/-!
# Capitals

Keywords are matched on the capitals of a word. Every keyword is ASCII, so only the characters
whose capitals are ASCII letters can take part in a match; a character with other capitals stays as
it is and matches nothing either way.
-/

namespace BusScript.Text

/-- The capitals of a character where they are ASCII: the small letters, the dotless i, the long s,
the sharp s and the Latin ligatures. -/
def capitals (c : Char) : List Char :=
  if 'a' ≤ c ∧ c ≤ 'z' then [Char.ofNat (c.toNat - 32)]
  else if c = 'ı' then ['I']
  else if c = 'ſ' then ['S']
  else if c = 'ß' then ['S', 'S']
  else if c = 'ﬀ' then ['F', 'F']
  else if c = 'ﬁ' then ['F', 'I']
  else if c = 'ﬂ' then ['F', 'L']
  else if c = 'ﬃ' then ['F', 'F', 'I']
  else if c = 'ﬄ' then ['F', 'F', 'L']
  else if c = 'ﬅ' ∨ c = 'ﬆ' then ['S', 'T']
  else [c]

/-- A word in capitals. -/
def capitalize (word : List Char) : List Char :=
  word.flatMap capitals

/-- An ASCII capital as the small letter; any other character as it is. -/
def small (c : Char) : Char :=
  if 'A' ≤ c ∧ c ≤ 'Z' then Char.ofNat (c.toNat + 32) else c

end BusScript.Text
