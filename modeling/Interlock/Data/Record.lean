import Interlock.Data.Value

/-!
# Records

Reads records with fixed field names out of structured values. A record is written as a table, in
which names that are not known are passed over, or as the list of its fields in order. What is said
of one field is a `Slot`; how an absent field is read is the choice of the reader of that field.
-/

namespace Interlock.Data

/-- How strictly the list form of a record is read. -/
inductive Strictness where
  /-- A list with more items than the record has fields is refused. -/
  | exact
  /-- Items behind the last field are passed over. -/
  | lenient
  deriving DecidableEq, Repr, Inhabited

/-- What a record says of one of its fields. -/
inductive Slot where
  | given (v : Value)
  /-- The table does not have the name. -/
  | absent
  /-- The list ends before the field. -/
  | cut
  deriving Inhabited

namespace Slot

variable {α : Type}

/-- A field that has to be there. -/
def required (read : Value → Option α) : Slot → Option α
  | given v => read v
  | _ => none

/-- A field that a table may leave out. -/
def optional (read : Value → Option α) : Slot → Option (Option α)
  | given .null => some none
  | given v => (read v).map some
  | absent => some none
  | cut => none

/-- A field that may be left out in either form. -/
def orDefault (fallback : α) (read : Value → Option α) : Slot → Option α
  | given v => read v
  | _ => some fallback

end Slot

namespace Value

/-- The fields of a record, in the order of `names`. A name that stands twice in a table is
refused. -/
def slots? (strict : Strictness) (names : List String) : Value → Option (List Slot)
  | .table fields =>
    if names.any fun n => (fields.filter fun f => f.1 = n).length > 1 then none
    else
      some <| names.map fun n =>
        match fields.find? fun f => f.1 = n with
        | some (_, v) => .given v
        | none => .absent
  | .list items =>
    if strict = .exact ∧ items.length > names.length then none
    else some (names.mapIdx fun i _ => (items[i]?).elim .cut .given)
  | _ => none

/-! ## Readers of plain values -/

/-- Reads a truth value. -/
def bool? : Value → Option Bool
  | .bool b => some b
  | _ => none

/-- Reads a text. -/
def text? : Value → Option String
  | .text s => some s
  | _ => none

/-- Reads a whole number below `bound`. -/
def nat? (bound : Nat) : Value → Option Nat
  | .int (.ofNat n) => if n < bound then some n else none
  | _ => none

/-- Reads a whole number of 64 bits. -/
def word? : Value → Option Nat := nat? (Nat.pow 2 64)

/-- Reads a whole number of 32 bits. -/
def line? : Value → Option Nat := nat? (Nat.pow 2 32)

/-- Reads a double; an integer stands for the nearest one. -/
def float? : Value → Option Float
  | .float x => some x
  | .int i => some (if i < 0 then -(i.natAbs.toUInt64.toFloat) else i.natAbs.toUInt64.toFloat)
  | _ => none

/-- Reads a list. -/
def list? {α : Type} (read : Value → Option α) : Value → Option (List α)
  | .list items => items.mapM read
  | _ => none

/-- Reads null as nothing. -/
def nullable? {α : Type} (read : Value → Option α) : Value → Option (Option α)
  | .null => some none
  | v => (read v).map some

/-- Reads a name out of a fixed list of choices: the name, or a table of the name alone with null
behind it. -/
def choice? {α : Type} (ofName : String → Option α) : Value → Option α
  | .text s => ofName s
  | .table [(s, .null)] => ofName s
  | _ => none

/-- The value of a field of a table. -/
def get? (name : String) : Value → Option Value
  | .table fields => (fields.find? fun f => f.1 = name).map Prod.snd
  | _ => none

end Value

end Interlock.Data
