/-!
# Texts

What the rest of the library asks of texts: whether a character is white space (`isBlank`), what
follows a given beginning (`after?`), and how names are ordered (`sortDistinct`).

A property of characters is a list of ranges of code points, both ends included; `inRanges` tests a
character against it.
-/

namespace Interlock.Text

/-- Whether a code point lies in one of the ranges. -/
def inRanges (ranges : List (Nat × Nat)) (c : Char) : Bool :=
  ranges.any fun r => r.1 ≤ c.toNat && c.toNat ≤ r.2

/-! ## White space -/

/-- The code points with the property White_Space. -/
def blanks : List (Nat × Nat) :=
  [(0x0009, 0x000D), (0x0020, 0x0020), (0x0085, 0x0085), (0x00A0, 0x00A0), (0x1680, 0x1680),
    (0x2000, 0x200A), (0x2028, 0x2029), (0x202F, 0x202F), (0x205F, 0x205F), (0x3000, 0x3000)]

/-- White space of any script. -/
def isBlank (c : Char) : Bool := inRanges blanks c

/-- The text without the white space at its end. -/
def trimEnd (cs : List Char) : List Char := (cs.reverse.dropWhile isBlank).reverse

/-! ## Beginnings -/

/-- What follows a beginning of a text, if the text has it. -/
def after? (start : String) (s : String) : Option String :=
  if start.toList.isPrefixOf s.toList then some (String.ofList (s.toList.drop start.length))
  else none

/-- A text without a beginning, if it has it. -/
def dropStart (start : String) (s : String) : String := (after? start s).getD s

/-! ## Sorted names -/

/-- The order of names, by their code points. -/
def le (a b : String) : Bool := decide (a ≤ b)

/-- The names of a list, each once, in order. -/
def sortDistinct (names : List String) : List String := names.eraseDups.mergeSort le

end Interlock.Text
