import Interlock.Data.Json.Number

/-!
# Tokens of JSON

`Token.scan` cuts a text into tokens, one character after the other: the state between two
characters is a `Scanner`, and `Scanner.step` takes one character. Strings are decoded on the way.
A string that holds one half of a surrogate pair is well formed but stands for no text.
-/

namespace Interlock.Data.Json

/-- A token. A literal carries its value. -/
inductive Token where
  | openList
  | closeList
  | openTable
  | closeTable
  | comma
  | colon
  | literal (v : Value)
  deriving Inhabited

/-- A string as far as it has been read. -/
structure Quoted where
  /-- The characters, the latest first. -/
  read : List Char
  /-- The first half of a surrogate pair that waits for the second. -/
  half : Option Nat
  /-- Whether every code unit so far has found its place. -/
  sound : Bool
  deriving Inhabited

namespace Quoted

/-- A string of which nothing has been read. -/
def start : Quoted := ⟨[], none, true⟩

/-- Appends a character. -/
def push (q : Quoted) (c : Char) : Quoted := ⟨c :: q.read, none, q.sound && q.half.isNone⟩

/-- Appends a code unit of sixteen bits. -/
def pushUnit (q : Quoted) (u : Nat) : Quoted :=
  if 0xDC00 ≤ u ∧ u < 0xE000 then
    match q.half with
    | some h =>
      ⟨Char.ofNat (0x10000 + (h - 0xD800) * 0x400 + (u - 0xDC00)) :: q.read, none, q.sound⟩
    | none => { q with sound := false }
  else if 0xD800 ≤ u ∧ u < 0xDC00 then
    ⟨q.read, some u, q.sound && q.half.isNone⟩
  else q.push (Char.ofNat u)

/-- What a finished string stands for. -/
def value (q : Quoted) : Value :=
  if q.sound && q.half.isNone then .text (String.ofList q.read.reverse) else .unreadable

end Quoted

/-- Where the scanner stands. -/
inductive Mode where
  | between
  | number (read : List Char)
  | word (read : List Char)
  | quoted (q : Quoted)
  | escape (q : Quoted)
  /-- Inside a `\u` escape, with the digits still to come and the value of those read. -/
  | unit (q : Quoted) (left : Nat) (code : Nat)
  deriving Inhabited

/-- The state between two characters. -/
structure Scanner where
  /-- The tokens, the latest first. -/
  tokens : List Token
  mode : Mode
  deriving Inhabited

/-- The value of a hexadecimal digit. -/
def hexValue? (c : Char) : Option Nat :=
  if '0' ≤ c ∧ c ≤ '9' then some (c.toNat - '0'.toNat)
  else if 'a' ≤ c ∧ c ≤ 'f' then some (c.toNat - 'a'.toNat + 10)
  else if 'A' ≤ c ∧ c ≤ 'F' then some (c.toNat - 'A'.toNat + 10)
  else none

/-- The character that a one-letter escape stands for. -/
def escaped? : Char → Option Char
  | '"' => some '"'
  | '\\' => some '\\'
  | '/' => some '/'
  | 'b' => some '\x08'
  | 'f' => some '\x0c'
  | 'n' => some '\n'
  | 'r' => some '\r'
  | 't' => some '\t'
  | _ => none

/-- The blanks that may stand between tokens. -/
def isSpace (c : Char) : Bool := c = ' ' || c = '\n' || c = '\t' || c = '\r'

/-- The characters of numbers. -/
def inNumber (c : Char) : Bool := c.isDigit || c = '-' || c = '+' || c = '.' || c = 'e' || c = 'E'

/-- The value of a bare word. -/
def word? (cs : List Char) : Option Value :=
  if cs = "null".toList then some .null
  else if cs = "true".toList then some (.bool true)
  else if cs = "false".toList then some (.bool false)
  else none

namespace Scanner

/-- Nothing has been read. -/
def start : Scanner := ⟨[], .between⟩

/-- Ends a token that lasts until some other character follows. -/
def settle (s : Scanner) : Option Scanner :=
  match s.mode with
  | .between => some s
  | .number read => (readNumber? read.reverse).map fun v => ⟨.literal v :: s.tokens, .between⟩
  | .word read => (word? read.reverse).map fun v => ⟨.literal v :: s.tokens, .between⟩
  | _ => none

/-- Takes a character that starts a token or stands between tokens. -/
def begin? (tokens : List Token) (c : Char) : Option Scanner :=
  match c with
  | '[' => some ⟨.openList :: tokens, .between⟩
  | ']' => some ⟨.closeList :: tokens, .between⟩
  | '\x7b' => some ⟨.openTable :: tokens, .between⟩
  | '\x7d' => some ⟨.closeTable :: tokens, .between⟩
  | ',' => some ⟨.comma :: tokens, .between⟩
  | ':' => some ⟨.colon :: tokens, .between⟩
  | '"' => some ⟨tokens, .quoted .start⟩
  | _ =>
    if isSpace c then some ⟨tokens, .between⟩
    else if c.isDigit ∨ c = '-' then some ⟨tokens, .number [c]⟩
    else if c.isLower then some ⟨tokens, .word [c]⟩
    else none

/-- Takes one character. -/
def step (s : Scanner) (c : Char) : Option Scanner :=
  match s.mode with
  | .between => begin? s.tokens c
  | .number read =>
    if inNumber c then some ⟨s.tokens, .number (c :: read)⟩
    else s.settle.bind fun t => begin? t.tokens c
  | .word read =>
    if c.isLower then some ⟨s.tokens, .word (c :: read)⟩
    else s.settle.bind fun t => begin? t.tokens c
  | .quoted q =>
    if c = '"' then some ⟨.literal q.value :: s.tokens, .between⟩
    else if c = '\\' then some ⟨s.tokens, .escape q⟩
    else if c.toNat < 0x20 then none
    else some ⟨s.tokens, .quoted (q.push c)⟩
  | .escape q =>
    if c = 'u' then some ⟨s.tokens, .unit q 4 0⟩
    else (escaped? c).map fun e => ⟨s.tokens, .quoted (q.push e)⟩
  | .unit q left code =>
    (hexValue? c).map fun d =>
      let code := 16 * code + d
      if left ≤ 1 then ⟨s.tokens, .quoted (q.pushUnit code)⟩
      else ⟨s.tokens, .unit q (left - 1) code⟩

end Scanner

/-- The tokens of a text. -/
def Token.scan (cs : List Char) : Option (List Token) := do
  let s ← cs.foldlM Scanner.step Scanner.start
  let s ← s.settle
  return s.tokens.reverse

end Interlock.Data.Json
