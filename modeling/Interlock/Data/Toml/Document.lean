import Interlock.Data.Value

/-!
# Tables of TOML

A document is built line by line. Which lines may add to a table depends on how the table came to be
(`Origin`): a table is opened by a header only once, and a table that has a header of its own, or
comes from one, is not extended by a dotted name.
-/

namespace Interlock.Data.Toml

/-- How a table came to be. -/
inductive Origin where
  /-- As part of the header of another table. -/
  | implied
  /-- As part of a dotted name in front of a value. -/
  | dotted
  /-- By its own header. -/
  | opened
  deriving DecidableEq, Repr, Inhabited

/-- What a name stands for. -/
inductive Item where
  | value (v : Value)
  | table (origin : Origin) (fields : List (String × Item))
  /-- A list of tables that grows with every header for it. -/
  | tables (earlier : List (List (String × Item))) (latest : List (String × Item))
  deriving Inhabited

/-- The fields of a table. -/
abbrev Fields := List (String × Item)

namespace Fields

/-- What a name stands for in a table. -/
def get? (fields : Fields) (name : String) : Option Item :=
  (fields.find? fun f => f.1 = name).map Prod.snd

/-- Lets a name stand for something. -/
def set (fields : Fields) (name : String) (item : Item) : Fields :=
  if (fields.find? fun f => f.1 = name).isSome then
    fields.map fun f => if f.1 = name then (name, item) else f
  else fields ++ [(name, item)]

/-- Changes the table at the end of a path of names. Tables on the way that are not there are made,
with the origin `made`; a list of tables stands for the latest of them. By way of a dotted name no
table with a header of its own is entered. -/
def at? (made : Origin) (change : Origin → Fields → Option Fields) :
    List String → Origin → Fields → Option Fields
  | [], origin, fields => change origin fields
  | name :: path, _, fields =>
    match fields.get? name with
    | none => (at? made change path made []).map fun inner => fields.set name (.table made inner)
    | some (.value _) => none
    | some (.tables earlier latest) =>
      (at? made change path .opened latest).map fun inner => fields.set name (.tables earlier inner)
    | some (.table origin inner) =>
      if made = .dotted ∧ origin = .opened then none
      else
        (at? made change path origin inner).map fun inner => fields.set name (.table origin inner)

/-- Adds a value under a new name. -/
def insert? (path : List String) (name : String) (v : Value) (origin : Origin) (fields : Fields) :
    Option Fields :=
  if decide (origin = .dotted) == path.isEmpty then none
  else
    match fields.get? name with
    | some _ => none
    | none => some (fields ++ [(name, .value v)])

/-- Adds a value under a dotted name, given with its last part apart. -/
def assign? (path : List String) (name : String) (v : Value) (origin : Origin) (fields : Fields) :
    Option Fields :=
  at? .dotted (insert? path name v) path origin fields

/-- Opens a table. -/
def open? (name : String) (_ : Origin) (fields : Fields) : Option Fields :=
  match fields.get? name with
  | none => some (fields ++ [(name, .table .opened [])])
  | some (.table .implied inner) => some (fields.set name (.table .opened inner))
  | some _ => none

/-- Opens the next table of a list. -/
def openNext? (name : String) (_ : Origin) (fields : Fields) : Option Fields :=
  match fields.get? name with
  | none => some (fields ++ [(name, .tables [] [])])
  | some (.tables earlier latest) => some (fields.set name (.tables (earlier ++ [latest]) []))
  | some _ => none

end Fields

mutual

/-- The value that an item stands for. -/
def Item.toValue : Item → Value
  | .value v => v
  | .table _ fields => .table (fieldValues fields)
  | .tables earlier latest => .list (tableValues earlier ++ [.table (fieldValues latest)])

/-- The values of the fields of a table. -/
def fieldValues : List (String × Item) → List (String × Value)
  | [] => []
  | (name, item) :: rest => (name, item.toValue) :: fieldValues rest

/-- The values of a list of tables. -/
def tableValues : List (List (String × Item)) → List Value
  | [] => []
  | fields :: rest => .table (fieldValues fields) :: tableValues rest

end

/-- A document as far as it has been read. -/
structure Document where
  root : Fields
  /-- The table that lines add to. -/
  current : List String

namespace Document

def empty : Document := ⟨[], []⟩

/-- A line of a document. -/
inductive Line where
  | assign (path : List String) (name : String) (v : Value)
  | openTable (path : List String) (name : String)
  | openNext (path : List String) (name : String)

/-- Adds a line. -/
def add? (d : Document) : Line → Option Document
  | .assign path name v =>
    (d.root.at? .implied (Fields.assign? path name v) d.current .opened).map fun root =>
      { d with root }
  | .openTable path name =>
    (d.root.at? .implied (Fields.open? name) path .opened).map fun root =>
      ⟨root, path ++ [name]⟩
  | .openNext path name =>
    (d.root.at? .implied (Fields.openNext? name) path .opened).map fun root =>
      ⟨root, path ++ [name]⟩

end Document

end Interlock.Data.Toml
