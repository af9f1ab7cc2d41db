import Interlock.Number.Binary64

/-!
# Decimal literals

A decimal is a sign and `digits · 10 ^ exponent` (`Decimal`). `Decimal.toFloat` is the nearest
double, and `Decimal.read?` reads the usual spelling: digits with an optional point and an optional
power of ten. `readFloat?` reads the names of the values that are not finite as well.
-/

namespace Interlock.Number

/-- A decimal literal: `± digits · 10 ^ exponent`. -/
structure Decimal where
  negative : Bool
  digits : Nat
  exponent : Int
  deriving DecidableEq, Repr, Inhabited

/-- The value of a list of decimal digits. -/
def ofDigits (cs : List Char) : Nat := cs.foldl (fun n c => 10 * n + (c.toNat - '0'.toNat)) 0

namespace Decimal

/-- The nearest double. Exponents far out of range are cut short, since powers of ten that large
are never needed. -/
def toFloat (d : Decimal) : Float :=
  let size : Int := (Nat.toDigits 10 d.digits).length
  let magnitude :=
    if d.digits = 0 ∨ d.exponent + size < -400 then 0
    else if d.exponent + size > 400 then Float.ofBits (2047 * Nat.pow 2 52).toUInt64
    else if d.exponent < 0 then nearest d.digits (Nat.pow 10 d.exponent.natAbs)
    else nearest (d.digits * Nat.pow 10 d.exponent.natAbs) 1
  if d.negative then -magnitude else magnitude

/-- The sign in front of a literal and the rest. -/
def splitSign : List Char → Bool × List Char
  | '-' :: rest => (true, rest)
  | '+' :: rest => (false, rest)
  | cs => (false, cs)

/-- The power of ten at the end of a literal: nothing, or a letter `e` with digits behind it. -/
def readExponent? : List Char → Option Int
  | [] => some 0
  | c :: rest =>
    if c = 'e' ∨ c = 'E' then
      let (negative, ds) := splitSign rest
      if ds.isEmpty ∨ !ds.all Char.isDigit then none
      else some (if negative then -(ofDigits ds : Int) else ofDigits ds)
    else none

/-- A literal without its sign. There is at least one digit on one side of the point. -/
def readMagnitude? (negative : Bool) (cs : List Char) : Option Decimal := do
  let whole := cs.takeWhile Char.isDigit
  let rest := cs.dropWhile Char.isDigit
  let (fraction, rest) :=
    match rest with
    | '.' :: behind => (behind.takeWhile Char.isDigit, behind.dropWhile Char.isDigit)
    | _ => ([], rest)
  if whole.isEmpty ∧ fraction.isEmpty then none
  let exponent ← readExponent? rest
  return ⟨negative, ofDigits (whole ++ fraction), exponent - fraction.length⟩

/-- Reads a decimal literal, with an optional sign. -/
def read? (cs : List Char) : Option Decimal :=
  let (negative, rest) := splitSign cs
  readMagnitude? negative rest

end Decimal

/-- Reads a decimal literal or one of the names `inf`, `infinity` and `nan`, in any case and with an
optional sign. -/
def readFloat? (text : String) : Option Float :=
  let (negative, rest) := Decimal.splitSign text.toList
  let name := String.ofList (rest.map Char.toLower)
  let infinite := Float.ofBits (2047 * Nat.pow 2 52).toUInt64
  if name = "inf" ∨ name = "infinity" then some (if negative then -infinite else infinite)
  else if name = "nan" then some (0 / 0)
  else (Decimal.readMagnitude? negative rest).map Decimal.toFloat

end Interlock.Number
