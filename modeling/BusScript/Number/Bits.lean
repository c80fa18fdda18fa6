/-!
# Bits of integers

Bitwise conjunction of integers of any size, a negative integer having endlessly many ones in
front: `-1` is all ones, and `-(n + 1)` is the complement of `n`.
-/

namespace BusScript.Number

/-- The bits that two integers share. -/
def bitAnd : Int → Int → Int
  | .ofNat a, .ofNat b => .ofNat (a &&& b)
  | .ofNat a, .negSucc b => .ofNat (a - (a &&& b))
  | .negSucc a, .ofNat b => .ofNat (b - (b &&& a))
  | .negSucc a, .negSucc b => .negSucc (a ||| b)

/-- An integer without the bits of another. -/
def bitClear (value bits : Int) : Int :=
  bitAnd value (-bits - 1)

end BusScript.Number
