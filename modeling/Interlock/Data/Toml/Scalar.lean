import Interlock.Data.Toml.Lexeme
import Interlock.Number.Decimal

/-!
# Numbers and dates of TOML

Integers have 64 bits, doubles are the nearest to their literal, and underscores may stand between
digits. A date or time is only checked: it is a table without any name that is of use.
-/

namespace Interlock.Data.Toml

open Number

/-- Reads digits of a class with single underscores between them. -/
def digitRun? (isDigit : Char → Bool) : List Char → Option (List Char × List Char)
  | c :: '_' :: rest =>
    if isDigit c then (digitRun? isDigit rest).map (prepend c) else none
  | c :: rest =>
    if isDigit c then
      match digitRun? isDigit rest with
      | some r => some (prepend c r)
      | none => if (rest.head?).any isDigit then none else some ([c], rest)
    else none
  | [] => none

/-- Reads a whole number in decimal digits: a zero, or digits that do not start with one. -/
def decimal? : Reads (List Char)
  | '0' :: rest => some (['0'], rest)
  | cs => digitRun? Char.isDigit cs

/-- The value of digits to a base. -/
def ofBase (base : Nat) (cs : List Char) : Nat :=
  cs.foldl (fun n c => base * n + (Json.hexValue? c).getD 0) 0

/-- An integer, if it has 64 bits. -/
def integer? (negative : Bool) (n : Nat) : Option Value :=
  if negative then if n ≤ Nat.pow 2 63 then some (.int (-n)) else none
  else if n < Nat.pow 2 63 then some (.int n) else none

/-- Reads a number to another base. -/
def based? : Reads Value
  | '0' :: 'x' :: rest => digits 16 (fun c => (Json.hexValue? c).isSome) rest
  | '0' :: 'o' :: rest => digits 8 (fun c => '0' ≤ c && c ≤ '7') rest
  | '0' :: 'b' :: rest => digits 2 (fun c => c = '0' || c = '1') rest
  | _ => none
where
  digits (base : Nat) (isDigit : Char → Bool) (cs : List Char) : Option (Value × List Char) := do
    let (ds, rest) ← digitRun? isDigit cs
    return (← integer? false (ofBase base ds), rest)

/-- Reads the digits behind a point, if there is one. -/
def fraction? : Reads (Option (List Char))
  | '.' :: rest => (digitRun? Char.isDigit rest).map fun r => (some r.1, r.2)
  | cs => some (none, cs)

/-- Reads a power of ten, if there is one. -/
def power? : List Char → Option (Option Int × List Char)
  | c :: rest =>
    if c = 'e' ∨ c = 'E' then do
      let (negative, digits) := Decimal.splitSign rest
      let (ds, rest) ← digitRun? Char.isDigit digits
      return (some (if negative then -(ofDigits ds : Int) else ofDigits ds), rest)
    else some (none, c :: rest)
  | [] => some (none, [])

/-- Reads a number in decimal digits behind its sign. No literal stands for an infinite number
without a minus sign. -/
def decimalNumber? (negative : Bool) (cs : List Char) : Option (Value × List Char) := do
  let (whole, rest) ← decimal? cs
  let (fraction, rest) ← fraction? rest
  let (power, rest) ← power? rest
  if fraction.isNone ∧ power.isNone then
    return (← integer? negative (ofDigits whole), rest)
  let digits := fraction.getD []
  let x := (Decimal.mk negative (ofDigits (whole ++ digits)) (power.getD 0 - digits.length)).toFloat
  if x.isInf ∧ !negative then none
  return (.float x, rest)

/-- Reads a number behind its sign. -/
def signed? (negative : Bool) (cs : List Char) : Option (Value × List Char) :=
  let infinite := Float.ofBits (2047 * Nat.pow 2 52).toUInt64
  match cs with
  | 'i' :: 'n' :: 'f' :: rest => some (.float (if negative then -infinite else infinite), rest)
  | 'n' :: 'a' :: 'n' :: rest => some (.float (0 / 0), rest)
  | _ => decimalNumber? negative cs

/-- Reads a number. -/
def number? (cs : List Char) : Option (Value × List Char) :=
  match cs with
  | '+' :: rest => signed? false rest
  | '-' :: rest => signed? true rest
  | '0' :: c :: _ => if c = 'x' ∨ c = 'o' ∨ c = 'b' then based? cs else signed? false cs
  | _ => signed? false cs

/-! ## Dates and times -/

/-- Reads a number of exactly `count` digits within bounds. -/
def field? (count low high : Nat) (cs : List Char) : Option (Nat × List Char) :=
  let ds := cs.take count
  let n := ofDigits ds
  if ds.length = count ∧ ds.all Char.isDigit ∧ low ≤ n ∧ n ≤ high then some (n, cs.drop count)
  else none

/-- The rest behind a character. -/
def behind? (c : Char) : List Char → Option (List Char)
  | d :: rest => if d = c then some rest else none
  | [] => none

/-- The number of days of a month. -/
def daysIn (year month : Nat) : Nat :=
  if month = 2 then
    if year % 4 = 0 ∧ (year % 100 ≠ 0 ∨ year % 400 = 0) then 29 else 28
  else if month = 4 ∨ month = 6 ∨ month = 9 ∨ month = 11 then 30
  else 31

/-- The rest behind a date. -/
def date? (cs : List Char) : Option (List Char) := do
  let (year, rest) ← field? 4 0 9999 cs
  let (month, rest) ← field? 2 1 12 (← behind? '-' rest)
  let (_, rest) ← field? 2 1 (daysIn year month) (← behind? '-' rest)
  return rest

/-- The rest behind a time. -/
def time? (cs : List Char) : Option (List Char) := do
  let (_, rest) ← field? 2 0 23 cs
  let (_, rest) ← field? 2 0 59 (← behind? ':' rest)
  let (_, rest) ← field? 2 0 60 (← behind? ':' rest)
  match rest with
  | '.' :: digits =>
    if (digits.head?).any Char.isDigit then some (digits.dropWhile Char.isDigit) else none
  | _ => some rest

/-- The rest behind an offset, if there is one. -/
def offset? : List Char → Option (List Char)
  | c :: rest =>
    if c = 'Z' ∨ c = 'z' then some rest
    else if c = '+' ∨ c = '-' then do
      let (_, rest) ← field? 2 0 23 rest
      let (_, rest) ← field? 2 0 59 (← behind? ':' rest)
      return rest
    else some (c :: rest)
  | [] => some []

/-- Whether a text starts like a date. -/
def startsDate (cs : List Char) : Bool :=
  (cs.take 4).length = 4 && (cs.take 4).all Char.isDigit && (cs.drop 4).head? = some '-'

/-- Whether a text starts like a time. -/
def startsTime (cs : List Char) : Bool :=
  (cs.take 2).length = 2 && (cs.take 2).all Char.isDigit && (cs.drop 2).head? = some ':'

/-- Reads a date, a time, or both. -/
def dateTime? (cs : List Char) : Option (Value × List Char) := do
  let rest ←
    if startsDate cs then do
      let rest ← date? cs
      match rest with
      | c :: after =>
        if (c = 'T' ∨ c = 't' ∨ c = ' ') ∧ startsTime after then offset? (← time? after)
        else some rest
      | [] => some []
    else time? cs
  return (.table [("$date", .text (String.ofList (cs.take (cs.length - rest.length))))], rest)

/-- Reads a number or a date. -/
def scalar (cs : List Char) : Option (Value × List Char) :=
  if startsDate cs || startsTime cs then dateTime? cs else number? cs

end Interlock.Data.Toml
