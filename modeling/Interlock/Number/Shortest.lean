import Interlock.Number.Binary64

/-!
# The fewest digits that read back

`shortest p` is the decimal with the fewest digits among those that are nearer to the double `p`
than to any other double, and of these the one nearest to `p`. Candidates are looked for on the
grids of one digit, two digits and so on up to seventeen, which always suffice.

`plain` writes a double in positional notation with these digits.
-/

namespace Interlock.Number

/-- A decimal `digits · 10 ^ exponent`. -/
structure Shortest where
  digits : Nat
  exponent : Int
  deriving DecidableEq, Repr, Inhabited

namespace Shortest

/-- Whether `num / den` lies in the interval of reals that round to `p`, where both ends belong to
it if `m` is even. The lower end is nearer where the spacing of doubles changes. -/
def roundsTo (p : Parts) (num den : Nat) : Bool :=
  -- everything is scaled by 4 / 2 ^ q
  let s := scaled (4 * num) den p.q
  let low := if p.m = Nat.pow 2 52 ∧ p.q > -1074 then 4 * p.m - 1 else 4 * p.m - 2
  let high := 4 * p.m + 2
  if p.m % 2 = 0 then decide (low * s.2 ≤ s.1) && decide (s.1 ≤ high * s.2)
  else decide (low * s.2 < s.1) && decide (s.1 < high * s.2)

/-- The value of `p` as a quotient. -/
def quotient (p : Parts) : Nat × Nat :=
  if p.q < 0 then (p.m, Nat.pow 2 p.q.natAbs) else (p.m * Nat.pow 2 p.q.natAbs, 1)

/-- `digits · 10 ^ exponent` as a quotient. -/
def decimalQuotient (digits : Nat) (exponent : Int) : Nat × Nat :=
  if exponent < 0 then (digits, Nat.pow 10 exponent.natAbs)
  else (digits * Nat.pow 10 exponent.natAbs, 1)

/-- The decimal exponent of the first digit of a quotient. -/
def leadingExponent (num den : Nat) : Int :=
  let size (n : Nat) : Int := (Nat.toDigits 10 n).length
  let guess := size num - size den
  let d := decimalQuotient 1 guess
  if num * d.2 < d.1 * den then guess - 1 else guess

/-- The decimal with its last digit at `10 ^ exponent` that rounds to `p`, the nearer of the two
neighbours of `p` if both do. -/
def onGrid? (p : Parts) (exponent : Int) : Option Shortest :=
  let v := quotient p
  let unit := decimalQuotient 1 exponent
  -- the value is `num / den` units of the grid
  let num := v.1 * unit.2
  let den := v.2 * unit.1
  let below := num / den
  let fits (n : Nat) : Bool :=
    let d := decimalQuotient n exponent
    roundsTo p d.1 d.2
  let belowNearer := 2 * (num % den) < den ∨ (2 * (num % den) = den ∧ below % 2 = 0)
  let hit (n : Nat) : Option Shortest := if fits n then some ⟨n, exponent⟩ else none
  if belowNearer then (hit below).or (hit (below + 1)) else (hit (below + 1)).or (hit below)

end Shortest

/-- Takes the zeros off the end of a decimal. -/
def Shortest.trim (fuel : Nat) (d : Shortest) : Shortest :=
  match fuel with
  | 0 => d
  | fuel + 1 =>
    if d.digits ≠ 0 ∧ d.digits % 10 = 0 then trim fuel ⟨d.digits / 10, d.exponent + 1⟩ else d

/-- The shortest decimal that reads back as a finite double. -/
def shortest (p : Parts) : Shortest :=
  if p.m = 0 then ⟨0, 0⟩
  else
    let v := Shortest.quotient p
    let lead := Shortest.leadingExponent v.1 v.2
    let found := (List.range 17).findSome? fun (k : Nat) => Shortest.onGrid? p (lead - k)
    (found.getD ⟨p.m, 0⟩).trim 20

/-- Digits with a point `scale` places from the right, and a zero where nothing stands in front of
it. -/
def pointed (digits : Nat) (scale : Nat) : String :=
  let cs := Nat.toDigits 10 digits
  let padded := List.replicate (scale + 1 - cs.length) '0' ++ cs
  let whole := padded.take (padded.length - scale)
  if scale = 0 then String.ofList whole
  else String.ofList (whole ++ '.' :: padded.drop (padded.length - scale))

/-- A decimal in positional notation. -/
def Shortest.positional (d : Shortest) : String :=
  if d.exponent < 0 then pointed d.digits d.exponent.natAbs
  else pointed (d.digits * Nat.pow 10 d.exponent.natAbs) 0

/-- A double in positional notation with the fewest digits that read back. -/
def plain (x : Float) : String :=
  if x.isNaN then "NaN"
  else
    let sign := if isNegative x then "-" else ""
    if x.isInf then sign ++ "inf" else sign ++ (shortest (parts x)).positional

end Interlock.Number
