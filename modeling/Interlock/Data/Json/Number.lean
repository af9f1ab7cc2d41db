import Interlock.Data.Value
import Interlock.Number.Decimal

/-!
# Numbers of JSON

A number without point and power is an integer if it fits 64 bits, signed or unsigned. Any other is
a double, made in two steps: the digits that fit 64 bits are taken as a whole number, which is then
multiplied or divided by one power of ten. The result may differ from the nearest double in its last
bit.

* `Json.readNumber?` reads a literal; it fails only on a literal that is not well formed. A number
  too large for a double is `Value.unreadable`.
-/

namespace Interlock.Data.Json

open Number

/-- The greatest whole number that digits are gathered into. -/
def maxSignificand : Nat := Nat.pow 2 64 - 1

/-- Gathers digits into a significand as long as they fit, and counts those left over. -/
def gather (significand : Nat) : List Char → Nat × Nat
  | [] => (significand, 0)
  | c :: rest =>
    let next := 10 * significand + (c.toNat - '0'.toNat)
    if next ≤ maxSignificand then gather next rest else (significand, (c :: rest).length)

/-- A power of ten as a double. -/
def powerOfTen (e : Nat) : Float := nearest (Nat.pow 10 e) 1

/-- The greatest power of ten that is a double. -/
def maxPower : Nat := 308

/-- Divides by a power of ten, in steps if it is too large for a double. -/
def shrink (x : Float) (e : Nat) : Float :=
  if e ≤ maxPower then x / powerOfTen e
  else if x == 0 then x
  else shrink (x / powerOfTen maxPower) (e - maxPower)
termination_by e
decreasing_by simp [maxPower] at *; omega

/-- A significand times a power of ten, if a double can hold it. -/
def scale? (significand : Nat) (exponent : Int) : Option Float :=
  let x := significand.toUInt64.toFloat
  if exponent < 0 then some (shrink x exponent.natAbs)
  else if exponent.natAbs ≤ maxPower then
    let y := x * powerOfTen exponent.natAbs
    if y.isInf then none else some y
  else if x == 0 then some x
  else none

/-- The pieces of a literal. -/
structure Literal where
  negative : Bool
  whole : List Char
  fraction : Option (List Char)
  /-- The sign and the digits of the power of ten. -/
  power : Option (Bool × List Char)

/-- The double that a literal stands for. A power of ten with more digits than a machine word makes
the number vanish or grow beyond bounds. -/
def Literal.toFloat? (l : Literal) : Option Float :=
  let (significand, dropped) := gather 0 l.whole
  let fraction := l.fraction.getD []
  let (significand, left) := gather significand fraction
  let start : Int := (dropped : Int) - ((fraction.length - left : Nat) : Int)
  let magnitude :=
    match l.power with
    | none => scale? significand start
    | some (shrinks, ds) =>
      let e := ofDigits ds
      if e < Nat.pow 2 31 then scale? significand (if shrinks then start - e else start + e)
      else if significand = 0 ∨ shrinks then some 0
      else none
  magnitude.map fun x => if l.negative then -x else x

/-- The value that a literal stands for. -/
def Literal.value (l : Literal) : Value :=
  let n := ofDigits l.whole
  let asFloat :=
    match l.toFloat? with
    | some x => .float x
    | none => .unreadable
  if l.fraction.isSome ∨ l.power.isSome then asFloat
  else if l.negative then if 0 < n ∧ n ≤ Nat.pow 2 63 then .int (-n) else asFloat
  else if n ≤ maxSignificand then .int n
  else asFloat

/-- The power of ten at the end of a literal. -/
def readPower? : List Char → Option (Option (Bool × List Char))
  | [] => some none
  | c :: rest =>
    if c = 'e' ∨ c = 'E' then
      let (shrinks, ds) := Decimal.splitSign rest
      if ds.isEmpty ∨ !ds.all Char.isDigit then none else some (some (shrinks, ds))
    else none

/-- Reads a number. -/
def readNumber? (cs : List Char) : Option Value := do
  let (negative, cs) := match cs with
    | '-' :: rest => (true, rest)
    | _ => (false, cs)
  let whole := cs.takeWhile Char.isDigit
  let rest := cs.dropWhile Char.isDigit
  if whole.isEmpty ∨ (whole.head? = some '0' ∧ whole.length > 1) then none
  let (fraction, rest) ← match rest with
    | '.' :: behind =>
      let ds := behind.takeWhile Char.isDigit
      if ds.isEmpty then none else some (some ds, behind.dropWhile Char.isDigit)
    | _ => some (none, rest)
  let power ← readPower? rest
  return (Literal.mk negative whole fraction power).value

end Interlock.Data.Json
