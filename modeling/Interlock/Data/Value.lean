/-!
# Structured values

What a settings file or a report holds before its meaning is known: the values that the JSON and
the TOML formats have in common.
-/

namespace Interlock.Data

/-- A structured value. -/
inductive Value where
  | null
  | bool (b : Bool)
  | int (i : Int)
  | float (x : Float)
  | text (s : String)
  | list (items : List Value)
  /-- A table with its fields in the order of the text. A name may stand in it more than once. -/
  | table (fields : List (String × Value))
  /-- Something well formed that stands for no value, such as a number beyond all doubles. It can
  be passed over, but not be taken for anything. -/
  | unreadable
  deriving Inhabited

namespace Value

/-- A natural number as a value. -/
def ofNat (n : Nat) : Value := .int n

/-- A text, or null for an absent one. -/
def ofText? : Option String → Value
  | some s => .text s
  | none => .null

/-- A natural number, or null for an absent one. -/
def ofNat? : Option Nat → Value
  | some n => .ofNat n
  | none => .null

end Value

end Interlock.Data
