import Interlock.Data.Json.Token

/-!
# Lexemes of TOML

The pieces below values: blanks, comments, line ends, strings and names. Each reader takes the
characters that are left and gives back what it has read with the rest.
-/

namespace Interlock.Data.Toml

/-- A reader of the beginning of a text. -/
abbrev Reads (α : Type) := List Char → Option (α × List Char)

/-- Blanks inside a line. -/
def isBlank (c : Char) : Bool := c = ' ' || c = '\t'

/-- The characters that may stand in comments and strings as they are. -/
def isPlain (c : Char) : Bool := c = '\t' || (0x20 ≤ c.toNat && c.toNat ≠ 0x7f)

def skipBlanks (cs : List Char) : List Char := cs.dropWhile isBlank

/-- The rest behind a line end. -/
def lineEnd? : List Char → Option (List Char)
  | '\n' :: rest => some rest
  | '\r' :: '\n' :: rest => some rest
  | _ => none

/-- The rest behind a comment, if there is one. -/
def skipComment : List Char → List Char
  | '#' :: rest => rest.dropWhile isPlain
  | cs => cs

/-- The rest behind the blanks and the comment at the end of a line, and the line end itself unless
the text ends. -/
def endOfLine? (cs : List Char) : Option (List Char) :=
  match skipComment (skipBlanks cs) with
  | [] => some []
  | rest => lineEnd? rest

/-- Skips blanks, comments and line ends, as they may stand inside a list. -/
def skipLines : Nat → List Char → List Char
  | 0, cs => cs
  | fuel + 1, cs =>
    let rest := skipComment (skipBlanks cs)
    match lineEnd? rest with
    | some rest => skipLines fuel rest
    | none => rest

/-! ## Strings -/

/-- Reads some hexadecimal digits. -/
def hexDigits? : Nat → Nat → Reads Nat
  | 0, n, cs => some (n, cs)
  | count + 1, n, c :: rest => (Json.hexValue? c).bind fun d => hexDigits? count (16 * n + d) rest
  | _ + 1, _, [] => none

/-- Reads a character by its number. Halves of surrogate pairs are no characters. -/
def scalar? (digits : Nat) (cs : List Char) : Option (Char × List Char) := do
  let (n, rest) ← hexDigits? digits 0 cs
  if n < 0xD800 ∨ (0xE000 ≤ n ∧ n < 0x110000) then some (Char.ofNat n, rest) else none

/-- Reads an escape behind its backslash. -/
def escape? : Reads Char
  | 'b' :: rest => some ('\x08', rest)
  | 't' :: rest => some ('\t', rest)
  | 'n' :: rest => some ('\n', rest)
  | 'f' :: rest => some ('\x0c', rest)
  | 'r' :: rest => some ('\r', rest)
  | '"' :: rest => some ('"', rest)
  | '\\' :: rest => some ('\\', rest)
  | 'u' :: rest => scalar? 4 rest
  | 'U' :: rest => scalar? 8 rest
  | _ => none

/-- Puts a character in front of a text that has been read. -/
def prepend (c : Char) : List Char × List Char → List Char × List Char
  | (text, rest) => (c :: text, rest)

/-- Reads a string on one line behind its opening quote. -/
def basic? : Nat → Reads (List Char)
  | 0, _ => none
  | fuel + 1, cs =>
    match cs with
    | '"' :: rest => some ([], rest)
    | '\\' :: rest => do
      let (c, rest) ← escape? rest
      return prepend c (← basic? fuel rest)
    | c :: rest => if isPlain c then (basic? fuel rest).map (prepend c) else none
    | [] => none

/-- Reads a string without escapes on one line behind its opening quote. -/
def literal? : Reads (List Char)
  | '\'' :: rest => some ([], rest)
  | c :: rest => if isPlain c then (literal? rest).map (prepend c) else none
  | [] => none

/-- What closes a string of many lines: three quotes, with up to two more in front of them that
belong to the string. -/
def closing? (quote : Char) (cs : List Char) : Option (List Char × List Char) :=
  let run := (cs.takeWhile (· = quote)).length
  if run < 3 then none
  else
    let extra := min (run - 3) 2
    some (List.replicate extra quote, cs.drop (extra + 3))

/-- The rest behind a line end inside a string and all blanks and line ends after it. -/
def skipFold : Nat → List Char → List Char
  | 0, cs => cs
  | fuel + 1, cs =>
    match lineEnd? (skipBlanks cs) with
    | some rest => skipFold fuel rest
    | none => skipBlanks cs

/-- Reads a string of many lines behind its opening quotes. A backslash at the end of a line joins
it with the next one. -/
def multiBasic? : Nat → Reads (List Char)
  | 0, _ => none
  | fuel + 1, cs =>
    match closing? '"' cs with
    | some done => some done
    | none =>
      match cs with
      | '\\' :: rest =>
        match lineEnd? (skipBlanks rest) with
        | some next => multiBasic? fuel (skipFold fuel next)
        | none => do
          let (c, rest) ← escape? rest
          return prepend c (← multiBasic? fuel rest)
      | c :: rest =>
        match lineEnd? (c :: rest) with
        | some next => (multiBasic? fuel next).map (prepend '\n')
        | none => if isPlain c then (multiBasic? fuel rest).map (prepend c) else none
      | [] => none

/-- Reads a string of many lines without escapes behind its opening quotes. -/
def multiLiteral? : Nat → Reads (List Char)
  | 0, _ => none
  | fuel + 1, cs =>
    match closing? '\'' cs with
    | some done => some done
    | none =>
      match cs with
      | c :: rest =>
        match lineEnd? (c :: rest) with
        | some next => (multiLiteral? fuel next).map (prepend '\n')
        | none => if isPlain c then (multiLiteral? fuel rest).map (prepend c) else none
      | [] => none

/-- A line end right behind the opening quotes does not belong to the string. -/
def skipFirstLineEnd (cs : List Char) : List Char := (lineEnd? cs).getD cs

/-- A string that has been read, with the rest. -/
def asText (r : List Char × List Char) : String × List Char := (String.ofList r.1, r.2)

/-- Reads a string on one line. -/
def lineString? : Reads String
  | '"' :: rest => (basic? (rest.length + 1) rest).map asText
  | '\'' :: rest => (literal? rest).map asText
  | _ => none

/-- Reads any string. -/
def string? : Reads String
  | '"' :: '"' :: '"' :: rest => (multiBasic? (rest.length + 1) (skipFirstLineEnd rest)).map asText
  | '\'' :: '\'' :: '\'' :: rest =>
    (multiLiteral? (rest.length + 1) (skipFirstLineEnd rest)).map asText
  | cs => lineString? cs

/-! ## Names -/

/-- The characters of bare names. -/
def isBare (c : Char) : Bool := c.isAlphanum || c = '_' || c = '-'

/-- Reads one name. -/
def name? (cs : List Char) : Option (String × List Char) :=
  match cs with
  | '"' :: _ | '\'' :: _ => lineString? cs
  | _ =>
    let name := cs.takeWhile isBare
    if name.isEmpty then none else some (String.ofList name, cs.dropWhile isBare)

/-- Reads names with dots between them, and the blanks around them. -/
def names? : Nat → Reads (List String)
  | 0, _ => none
  | fuel + 1, cs => do
    let (name, rest) ← name? (skipBlanks cs)
    match skipBlanks rest with
    | '.' :: rest =>
      let (more, rest) ← names? fuel rest
      return (name :: more, rest)
    | rest => return ([name], rest)

end Interlock.Data.Toml
