import Interlock.Data.Value
import Interlock.Number.Shortest

/-!
# Writing JSON

`Json.pretty` writes one item a line, indented by two blanks a level; `Json.compact` writes a value
on one line without blanks. Control characters, quotes and backslashes are escaped; all else stands
as it is.
-/

namespace Interlock.Data.Json

open Number

/-- A digit below sixteen. -/
def hexDigit (n : Nat) : Char :=
  if n < 10 then Char.ofNat ('0'.toNat + n) else Char.ofNat ('a'.toNat + (n - 10))

/-- A character inside a string. -/
def escape (c : Char) : List Char :=
  match c with
  | '"' => ['\\', '"']
  | '\\' => ['\\', '\\']
  | '\x08' => ['\\', 'b']
  | '\x0c' => ['\\', 'f']
  | '\n' => ['\\', 'n']
  | '\r' => ['\\', 'r']
  | '\t' => ['\\', 't']
  | _ =>
    if c.toNat < 0x20 then
      ['\\', 'u', '0', '0', hexDigit (c.toNat / 16), hexDigit (c.toNat % 16)]
    else [c]

/-- A text between quotes. -/
def quote (s : String) : List Char := '"' :: s.toList.flatMap escape ++ ['"']

/-- A double: the fewest digits that read back, with at least one digit behind the point, or with a
power of ten if the first digit stands below the fifth or above the sixteenth place. What is not
finite is null. -/
def float (x : Float) : String :=
  if x.isNaN || x.isInf then "null"
  else
    let sign := if isNegative x then "-" else ""
    let d := shortest (parts x)
    let ds := Nat.toDigits 10 d.digits
    let lead : Int := d.exponent + ds.length - 1
    if d.digits = 0 then sign ++ "0.0"
    else if lead < -5 ∨ lead > 15 then
      let mantissa := String.ofList (ds.take 1 ++ (if ds.length > 1 then '.' :: ds.drop 1 else []))
      let mark := if lead < 0 then "e-" else "e+"
      sign ++ mantissa ++ mark ++ toString lead.natAbs
    else sign ++ d.positional ++ (if d.exponent < 0 then "" else ".0")

/-- An integer. -/
def integer (i : Int) : List Char :=
  if i < 0 then '-' :: Nat.toDigits 10 i.natAbs else Nat.toDigits 10 i.natAbs

/-- A new line with its indentation. -/
def newline (level : Nat) : List Char := '\n' :: List.replicate (2 * level) ' '

mutual

/-- A value, one item a line. -/
def prettyChars (level : Nat) : Value → List Char
  | .null => "null".toList
  | .bool b => if b then "true".toList else "false".toList
  | .int i => integer i
  | .float x => (float x).toList
  | .text s => quote s
  | .list [] => "[]".toList
  | .list (v :: items) =>
    '[' :: newline (level + 1) ++ prettyChars (level + 1) v ++ prettyItems (level + 1) items ++
      newline level ++ [']']
  | .table [] => ['\x7b', '\x7d']
  | .table ((name, v) :: fields) =>
    '\x7b' :: newline (level + 1) ++ quote name ++ [':', ' '] ++ prettyChars (level + 1) v ++
      prettyFields (level + 1) fields ++ newline level ++ ['\x7d']
  | .unreadable => "null".toList

/-- The items of a list after the first. -/
def prettyItems (level : Nat) : List Value → List Char
  | [] => []
  | v :: rest => ',' :: newline level ++ prettyChars level v ++ prettyItems level rest

/-- The fields of a table after the first. -/
def prettyFields (level : Nat) : List (String × Value) → List Char
  | [] => []
  | (name, v) :: rest =>
    ',' :: newline level ++ quote name ++ [':', ' '] ++ prettyChars level v ++
      prettyFields level rest

end

/-- A value, one item a line. -/
def pretty (v : Value) : String := String.ofList (prettyChars 0 v)

mutual

/-- A value on one line. -/
def compactChars : Value → List Char
  | .null => "null".toList
  | .bool b => if b then "true".toList else "false".toList
  | .int i => integer i
  | .float x => (float x).toList
  | .text s => quote s
  | .list [] => "[]".toList
  | .list (v :: items) => '[' :: compactChars v ++ compactItems items ++ [']']
  | .table [] => ['\x7b', '\x7d']
  | .table ((name, v) :: fields) =>
    '\x7b' :: quote name ++ ':' :: compactChars v ++ compactFields fields ++ ['\x7d']
  | .unreadable => "null".toList

/-- The items of a list after the first. -/
def compactItems : List Value → List Char
  | [] => []
  | v :: rest => ',' :: compactChars v ++ compactItems rest

/-- The fields of a table after the first. -/
def compactFields : List (String × Value) → List Char
  | [] => []
  | (name, v) :: rest => ',' :: quote name ++ ':' :: compactChars v ++ compactFields rest

end

/-- A value on one line. -/
def compact (v : Value) : String := String.ofList (compactChars v)

end Interlock.Data.Json
