import Interlock.Data.Json.Token

/-!
# Reading JSON

`Json.read?` reads a text as one value. The tokens are taken one after the other; the lists and
tables that are open at a point stand on a stack (`Frame`), and `Awaits` says what may come next.
-/

namespace Interlock.Data.Json

/-- A list or table that is not yet closed, its latest part first. -/
inductive Frame where
  | list (items : List Value)
  /-- A table and the name whose value is being read. -/
  | table (fields : List (Value × Value)) (name : Value)

/-- What may come next. -/
inductive Awaits where
  | value
  /-- A value or the end of the list just opened. -/
  | firstItem
  | name
  /-- A name or the end of the table just opened. -/
  | firstName
  | colon
  /-- A comma or the end of the innermost list or table. -/
  | comma
  /-- Nothing: the text is complete. -/
  | nothing (v : Value)

/-- The state between two tokens. -/
structure Reader where
  stack : List Frame
  awaits : Awaits

/-- The fields of a table, or nothing if a name is no text. -/
def namedFields? : List (Value × Value) → Option (List (String × Value))
  | [] => some []
  | (.text name, v) :: rest => (namedFields? rest).map ((name, v) :: ·)
  | _ :: _ => none

namespace Reader

/-- Nothing has been read. -/
def start : Reader := ⟨[], .value⟩

/-- Puts a finished value where it belongs. -/
def place (v : Value) : List Frame → Reader
  | [] => ⟨[], .nothing v⟩
  | .list items :: outer => ⟨.list (v :: items) :: outer, .comma⟩
  | .table fields name :: outer => ⟨.table ((name, v) :: fields) .null :: outer, .comma⟩

/-- Closes a list. -/
def closeList? : List Frame → Option Reader
  | .list items :: outer => some (place (.list items.reverse) outer)
  | _ => none

/-- Closes a table. -/
def closeTable? : List Frame → Option Reader
  | .table fields _ :: outer =>
    match namedFields? fields.reverse with
    | some named => some (place (.table named) outer)
    | none => some (place .unreadable outer)
  | _ => none

/-- Takes the first token of a value. -/
def open? (stack : List Frame) : Token → Option Reader
  | .literal v => some (place v stack)
  | .openList => some ⟨.list [] :: stack, .firstItem⟩
  | .openTable => some ⟨.table [] .null :: stack, .firstName⟩
  | _ => none

/-- Takes a string for a name. -/
def name? : List Frame → Token → Option Reader
  | .table fields _ :: outer, .literal (.text s) => some ⟨.table fields (.text s) :: outer, .colon⟩
  | .table fields _ :: outer, .literal .unreadable =>
    some ⟨.table fields .unreadable :: outer, .colon⟩
  | _, _ => none

/-- Takes one token. -/
def step (r : Reader) (t : Token) : Option Reader :=
  match r.awaits, t with
  | .value, t => open? r.stack t
  | .firstItem, .closeList => closeList? r.stack
  | .firstItem, t => open? r.stack t
  | .firstName, .closeTable => closeTable? r.stack
  | .firstName, t => name? r.stack t
  | .name, t => name? r.stack t
  | .colon, .colon => some ⟨r.stack, .value⟩
  | .comma, .closeList => closeList? r.stack
  | .comma, .closeTable => closeTable? r.stack
  | .comma, .comma =>
    match r.stack with
    | .list _ :: _ => some ⟨r.stack, .value⟩
    | .table _ _ :: _ => some ⟨r.stack, .name⟩
    | [] => none
  | _, _ => none

/-- The value of a complete text. -/
def result? (r : Reader) : Option Value :=
  match r.awaits with
  | .nothing v => some v
  | _ => none

end Reader

/-- Reads a text as one value. -/
def read? (text : String) : Option Value := do
  let tokens ← Token.scan text.toList
  (← tokens.foldlM Reader.step Reader.start).result?

end Interlock.Data.Json
