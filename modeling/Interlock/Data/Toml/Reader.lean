import Interlock.Data.Toml.Document
import Interlock.Data.Toml.Scalar

/-!
# Reading TOML

`Toml.read?` reads a text as a table. The document is read line by line; a value may extend over
many lines. What is read at each step leaves fewer characters, so their number limits all loops.
-/

namespace Interlock.Data.Toml

/-- A path of names with its last name apart. -/
def splitLast? (names : List String) : Option (List String × String) :=
  (names.getLast?).map fun name => (names.dropLast, name)

/-- Reads the names in front of a value, and the sign between them. -/
def assignee? (cs : List Char) : Option ((List String × String) × List Char) := do
  let (names, rest) ← names? (cs.length + 1) cs
  let target ← splitLast? names
  return (target, ← behind? '=' rest)

mutual

/-- Reads a value. -/
def value? : Nat → Reads Value
  | 0, _ => none
  | fuel + 1, cs =>
    match cs with
    | '"' :: _ | '\'' :: _ => (string? cs).map fun r => (.text r.1, r.2)
    | '[' :: rest => do
      let (vs, rest) ← items? fuel rest
      return (.list vs, rest)
    | '\x7b' :: rest => do
      let (fields, rest) ← inline? fuel true [] rest
      return (.table (fieldValues fields), rest)
    | 't' :: 'r' :: 'u' :: 'e' :: rest => some (.bool true, rest)
    | 'f' :: 'a' :: 'l' :: 's' :: 'e' :: rest => some (.bool false, rest)
    | _ => scalar cs

/-- Reads the items of a list and its closing bracket. -/
def items? : Nat → Reads (List Value)
  | 0, _ => none
  | fuel + 1, cs =>
    match skipLines cs.length cs with
    | ']' :: rest => some ([], rest)
    | cs => do
      let (v, rest) ← value? fuel cs
      match skipLines rest.length rest with
      | ',' :: rest =>
        let (vs, rest) ← items? fuel rest
        return (v :: vs, rest)
      | ']' :: rest => return ([v], rest)
      | _ => none

/-- Reads the fields of a table on one line and its closing brace. Only a table that has no field
yet may be closed where a name could stand. -/
def inline? : Nat → Bool → Fields → Reads Fields
  | 0, _, _, _ => none
  | fuel + 1, isFirst, fields, cs =>
    match isFirst, skipBlanks cs with
    | true, '\x7d' :: rest => some (fields, rest)
    | _, _ => do
      let ((path, name), rest) ← assignee? cs
      let (v, rest) ← value? fuel (skipBlanks rest)
      let fields ← fields.assign? path name v .opened
      match skipBlanks rest with
      | ',' :: rest => inline? fuel false fields rest
      | '\x7d' :: rest => return (fields, rest)
      | _ => none

end

/-- Reads a header behind its opening bracket. -/
def header? (cs : List Char) : Option (Document.Line × List Char) :=
  match cs with
  | '[' :: rest => do
    let (names, rest) ← names? (rest.length + 1) rest
    let (path, name) ← splitLast? names
    let rest ← behind? ']' (← behind? ']' rest)
    return (.openNext path name, rest)
  | _ => do
    let (names, rest) ← names? (cs.length + 1) cs
    let (path, name) ← splitLast? names
    return (.openTable path name, ← behind? ']' rest)

/-- Reads a line that is not empty. -/
def line? (cs : List Char) : Option (Document.Line × List Char) :=
  match cs with
  | '[' :: rest => header? rest
  | _ => do
    let ((path, name), rest) ← assignee? cs
    let (v, rest) ← value? (rest.length + 1) (skipBlanks rest)
    return (.assign path name v, rest)

/-- Reads all lines. -/
def lines? : Nat → Document → List Char → Option Document
  | 0, _, _ => none
  | fuel + 1, d, cs =>
    let rest := skipBlanks cs
    match rest with
    | [] => some d
    | c :: _ =>
      if c = '#' ∨ c = '\n' ∨ c = '\r' then (endOfLine? rest).bind (lines? fuel d)
      else do
        let (line, rest) ← line? rest
        lines? fuel (← d.add? line) (← endOfLine? rest)

/-- A mark that may stand at the beginning of a text. -/
def byteOrderMark : Char := Char.ofNat 0xFEFF

/-- Reads a text as a table. -/
def read? (text : String) : Option Value := do
  let cs :=
    match text.toList with
    | c :: rest => if c = byteOrderMark then rest else c :: rest
    | [] => []
  let d ← lines? (cs.length + 1) .empty cs
  return .table (fieldValues d.root)

end Interlock.Data.Toml
