import Interlock.Number.Shortest

/-!
# A fixed number of places

`fixed places x` writes a double with the given number of digits behind the point. The exact value
is rounded, a half going to the even neighbour.
-/

namespace Interlock.Number

/-- A double with a fixed number of digits behind the point. -/
def fixed (places : Nat) (x : Float) : String :=
  if x.isNaN then "NaN"
  else
    let sign := if isNegative x then "-" else ""
    if x.isInf then sign ++ "inf"
    else
      let v := Shortest.quotient (parts x)
      sign ++ pointed (roundDiv (v.1 * Nat.pow 10 places) v.2) places

end Interlock.Number
