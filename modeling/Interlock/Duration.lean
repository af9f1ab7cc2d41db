import Interlock.Number.Fixed

/-!
# Durations

A duration is a whole number of nanoseconds. `Duration.ofSeconds?` rounds seconds to it,
`Duration.seconds` goes back to a double, and `Duration.text` writes a duration in the largest unit
that leaves something before the point.
-/

namespace Interlock

open Number

/-- A span of time in nanoseconds. -/
structure Duration where
  nanos : Nat
  deriving DecidableEq, Repr, Inhabited

/-- Why seconds are no duration. -/
inductive DurationError where
  | negative
  /-- Too large, or not a number. -/
  | outOfRange
  deriving DecidableEq, Repr, Inhabited

def DurationError.message : DurationError → String
  | negative => "cannot convert float seconds to Duration: value is negative"
  | outOfRange => "cannot convert float seconds to Duration: value is either too big or NaN"

namespace Duration

/-- Nanoseconds in a second. -/
def perSecond : Nat := 1000000000

/-- The duration nearest to some seconds, a half going to the even neighbour. There are durations
of fewer than `2 ^ 64` seconds. -/
def ofSeconds? (x : Float) : Except DurationError Duration :=
  if x < 0 then .error .negative
  else if x.isNaN || x.isInf then .error .outOfRange
  else
    let v := Shortest.quotient (parts x)
    let nanos := roundDiv (v.1 * perSecond) v.2
    if nanos / perSecond < Nat.pow 2 64 then .ok ⟨nanos⟩ else .error .outOfRange

/-- A duration in seconds: the whole seconds and the rest are made doubles apart. -/
def seconds (d : Duration) : Float :=
  (d.nanos / perSecond).toUInt64.toFloat + (d.nanos % perSecond).toUInt64.toFloat / 1000000000

/-- A whole part, the digits of a fraction of `places` places without trailing zeros, and a unit. -/
def withUnit (n : Nat) (places : Nat) (unit : String) : String :=
  let whole := n / Nat.pow 10 places
  let digits := Nat.toDigits 10 (n % Nat.pow 10 places)
  let padded := List.replicate (places - digits.length) '0' ++ digits
  let fraction := (padded.reverse.dropWhile (· = '0')).reverse
  if n % Nat.pow 10 places = 0 then s!"{whole}{unit}"
  else s!"{whole}." ++ String.ofList fraction ++ unit

/-- A duration as text, such as `1.5ms`. -/
def text (d : Duration) : String :=
  if perSecond ≤ d.nanos then withUnit d.nanos 9 "s"
  else if 1000000 ≤ d.nanos then withUnit d.nanos 6 "ms"
  else if 1000 ≤ d.nanos then withUnit d.nanos 3 "µs"
  else withUnit d.nanos 0 "ns"

end Duration

end Interlock
