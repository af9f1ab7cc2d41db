import Interlock.Text.Digit
import Interlock.Text.Fold

/-!
# Names that look like locks

A name looks like a lock if it is configured as one, or if one of its words is the name of a lock:
a word starts at the beginning of the name or after an underscore and ends at the end of the name,
before an underscore or before a digit (`startsWithWord`). A name also looks like a lock if it ends
in a capitalised lock noun after a small ASCII letter or digit, as `stateLock` does
(`endsWithNoun`).
-/

namespace Interlock.Lock

/-- The words that name a lock, in any case. -/
def words : List String :=
  ["lock", "rlock", "locks", "mutex", "sem", "semaphore", "cond", "condition", "cv"]

/-- The nouns that name a lock at the end of a name. -/
def nouns : List String := ["Lock", "Mutex", "Semaphore", "Condition"]

/-- Whether a word may end before `rest`. -/
def endsWord : List Char → Bool
  | [] => true
  | c :: _ => c = '_' || Text.isDecimalDigit c

/-- Whether the characters start with a whole word that names a lock. -/
def startsWithWord (cs : List Char) : Bool :=
  words.any fun word =>
    match Text.stripFolded? word.toList cs with
    | some rest => endsWord rest
    | none => false

/-- Whether a whole word that names a lock follows some underscore. -/
def wordAfterUnderscore : List Char → Bool
  | [] => false
  | c :: rest => (c = '_' && startsWithWord rest) || wordAfterUnderscore rest

/-- A small ASCII letter or an ASCII digit. -/
def isSmallOrDigit (c : Char) : Bool := ('a' ≤ c && c ≤ 'z') || ('0' ≤ c && c ≤ '9')

/-- Whether the characters end in a lock noun that follows a small letter or a digit. -/
def endsWithNoun (cs : List Char) : Bool :=
  nouns.any fun noun =>
    noun.toList.isSuffixOf cs &&
      match cs.reverse.drop noun.length with
      | [] => false
      | c :: _ => isSmallOrDigit c

/-- The names that count as locks beyond the rules above. -/
structure Names where
  configured : List String := []
  deriving Repr, Inhabited

/-- Whether a name is taken for that of a lock. -/
def Names.looksLikeLock (names : Names) (name : String) : Bool :=
  names.configured.contains name ||
    startsWithWord name.toList || wordAfterUnderscore name.toList || endsWithNoun name.toList

end Interlock.Lock
