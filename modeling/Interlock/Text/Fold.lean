/-!
# Case folding

`foldsTo` says when a character equals a small ASCII letter up to simple case folding: the letter
itself, its capital, and for `k` and `s` the Kelvin sign and the long s.
-/

namespace Interlock.Text

/-- The character that simple case folding gives, for characters that fold to ASCII. -/
def fold (c : Char) : Char :=
  if c.toNat = 0x212A then 'k'
  else if c.toNat = 0x017F then 's'
  else c.toLower

/-- Whether `c` is the small ASCII letter `letter` up to case folding. -/
def foldsTo (c letter : Char) : Bool := fold c = letter

/-- Whether a text starts with a word of small ASCII letters up to case folding, and what follows
it. -/
def stripFolded? : List Char → List Char → Option (List Char)
  | [], rest => some rest
  | _ :: _, [] => none
  | letter :: word, c :: rest => if foldsTo c letter then stripFolded? word rest else none

end Interlock.Text
