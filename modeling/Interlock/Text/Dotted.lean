/-!
# Dotted names

A dotted name is a text read as segments between dots. `leaf` is its last segment, `head` its first,
and `splitLast?` cuts at the last dot.
-/

namespace Interlock.Text

/-- The last segment: `a.b.c` gives `c`. -/
def leaf (s : String) : String :=
  String.ofList (s.toList.reverse.takeWhile (· != '.')).reverse

/-- The first segment: `a.b.c` gives `a`. -/
def head (s : String) : String := String.ofList (s.toList.takeWhile (· != '.'))

/-- The parts before and after the last dot, if there is one. -/
def splitLast? (s : String) : Option (String × String) :=
  match s.toList.reverse.dropWhile (· != '.') with
  | [] => none
  | _ :: before => some (String.ofList before.reverse, leaf s)

/-- Whether `part` occurs in `cs`. -/
def occursIn (part : List Char) : List Char → Bool
  | [] => part.isEmpty
  | c :: rest => part.isPrefixOf (c :: rest) || occursIn part rest

/-- Whether `part` occurs in `s`. -/
def contains (s part : String) : Bool := occursIn part.toList s.toList

end Interlock.Text
