/-!
# Doubles as exact numbers

A finite double is a sign and `m · 2 ^ q` for naturals `m` and integers `q` (`Parts`). `nearest`
goes the other way: the double nearest to a quotient of naturals, a half going to the even
neighbour.
-/

namespace Interlock.Number

/-- A finite double: `± m · 2 ^ q`. -/
structure Parts where
  negative : Bool
  m : Nat
  q : Int
  deriving DecidableEq, Repr, Inhabited

/-- Whether the sign bit is set, also of a zero. -/
def isNegative (x : Float) : Bool := x.toBits >>> 63 = 1

/-- The parts of a double that is neither infinite nor a NaN. -/
def parts (x : Float) : Parts :=
  let bits := x.toBits.toNat
  let fraction : Nat := bits % Nat.pow 2 52
  let biased : Nat := bits / Nat.pow 2 52 % Nat.pow 2 11
  { negative := isNegative x
    m := if biased = 0 then fraction else fraction + Nat.pow 2 52
    q := if biased = 0 then -1074 else (biased : Int) - 1075 }

/-- A quotient rounded to the nearest natural, a half going to the even neighbour. -/
def roundDiv (num den : Nat) : Nat :=
  let floor := num / den
  let twice := 2 * (num % den)
  if twice < den ∨ (twice = den ∧ floor % 2 = 0) then floor else floor + 1

/-- A quotient scaled by `2 ^ (-q)`, as numerator and denominator. -/
def scaled (num den : Nat) (q : Int) : Nat × Nat :=
  if q < 0 then (num * Nat.pow 2 q.natAbs, den) else (num, den * Nat.pow 2 q.natAbs)

/-- The exponent that gives the rounded significand 53 bits, or as many as the range of exponents
leaves. -/
def exponentFor (num den : Nat) : Int :=
  let guess : Int := (Nat.log2 num : Int) - (Nat.log2 den : Int) - 53
  let s := scaled num den guess
  max (if s.1 / s.2 < Nat.pow 2 53 then guess else guess + 1) (-1074)

/-- The double nearest to `num / den`; beyond the largest double it is infinite. -/
def nearest (num den : Nat) : Float :=
  if num = 0 ∨ den = 0 then 0
  else
    let q := exponentFor num den
    let s := scaled num den q
    let m := roundDiv s.1 s.2
    -- a significand of 54 bits carries over into the exponent
    let bits := if m < Nat.pow 2 52 then m else (q + 1074).toNat * Nat.pow 2 52 + m
    if bits < 2047 * Nat.pow 2 52 then Float.ofBits bits.toUInt64
    else Float.ofBits (2047 * Nat.pow 2 52).toUInt64

end Interlock.Number
