import Interlock.Lock.Pattern
import Interlock.Proofs.Text.Folding

/-!
# Which names look like locks

The test on names tries the start of the name and every underscore, and at each of these places
every word that names a lock. `Names.looksLikeLock_iff` says what it comes to, with no order of
trials: the name is cut into three parts, of which the middle one is such a word up to case folding,
or it ends in a noun that names a lock.

One lemma for each part of the test gives the cut that the part looks for (`startsWithWord_iff`,
`wordAfterUnderscore_iff`, `endsWithNoun_iff`).
-/

namespace Interlock.Lock

open Text

variable {cs : List Char}

/-! ## Words -/

/-- The words that name a lock are in small letters. -/
theorem isLower_of_mem_words : ∀ word ∈ words, ∀ c ∈ word.toList, c.isLower = true := by
  have hall : (words.all fun word => word.toList.all Char.isLower) = true := by decide +kernel
  simpa only [List.all_eq_true] using hall

theorem endsWord_iff :
    endsWord cs = true ↔ cs = [] ∨ ∃ c ∈ cs.head?, c = '_' ∨ isDecimalDigit c = true := by
  cases cs <;> simp [endsWord]

theorem startsWithWord_iff : startsWithWord cs = true ↔ ∃ w after, cs = w ++ after ∧
    (∃ word ∈ words, EqualFolded w word.toList) ∧ endsWord after = true := by
  rw [startsWithWord, List.any_eq_true]
  constructor
  · rintro ⟨word, hword, h⟩
    split at h
    · rename_i after hstrip
      obtain ⟨w, hcs, hfold⟩ := (stripFolded?_eq_some_iff (isLower_of_mem_words word hword)).1 hstrip
      exact ⟨w, after, hcs, ⟨word, hword, hfold⟩, h⟩
    · cases h
  · rintro ⟨w, after, hcs, ⟨word, hword, hfold⟩, hafter⟩
    have hstrip : stripFolded? word.toList cs = some after :=
      (stripFolded?_eq_some_iff (isLower_of_mem_words word hword)).2 ⟨w, hcs, hfold⟩
    exact ⟨word, hword, by rw [hstrip]; exact hafter⟩

theorem wordAfterUnderscore_iff : wordAfterUnderscore cs = true ↔
    ∃ before rest, cs = before ++ '_' :: rest ∧ startsWithWord rest = true := by
  induction cs with
  | nil => simp [wordAfterUnderscore]
  | cons c cs ih =>
    rw [wordAfterUnderscore, Bool.or_eq_true, Bool.and_eq_true, decide_eq_true_eq, ih]
    constructor
    · rintro (⟨rfl, hstarts⟩ | ⟨before, rest, rfl, hstarts⟩)
      · exact ⟨[], cs, rfl, hstarts⟩
      · exact ⟨c :: before, rest, rfl, hstarts⟩
    · rintro ⟨before, rest, hcs, hstarts⟩
      cases before with
      | nil =>
        obtain ⟨rfl, rfl⟩ := List.cons.inj hcs
        exact .inl ⟨rfl, hstarts⟩
      | cons d before =>
        obtain ⟨rfl, rfl⟩ := List.cons.inj hcs
        exact .inr ⟨before, rest, rfl, hstarts⟩

/-- A word is looked for at the start and after every underscore. -/
theorem startsWithWord_or_wordAfterUnderscore_iff :
    (startsWithWord cs = true ∨ wordAfterUnderscore cs = true) ↔ ∃ before rest,
      cs = before ++ rest ∧ (before = [] ∨ before.getLast? = some '_') ∧
        startsWithWord rest = true := by
  rw [wordAfterUnderscore_iff]
  constructor
  · rintro (hstarts | ⟨before, rest, rfl, hstarts⟩)
    · exact ⟨[], cs, rfl, .inl rfl, hstarts⟩
    · exact ⟨before ++ ['_'], rest, by simp, .inr (by simp), hstarts⟩
  · rintro ⟨before, rest, rfl, rfl | hlast, hstarts⟩
    · exact .inl hstarts
    · obtain ⟨stem, rfl⟩ := List.getLast?_eq_some_iff.1 hlast
      exact .inr ⟨stem, rest, by simp, hstarts⟩

/-! ## Nouns -/

theorem isSmallOrDigit_iff {c : Char} :
    isSmallOrDigit c = true ↔ c.isLower = true ∨ c.isDigit = true := by
  have hlower : c.isLower = (decide ('a'.val ≤ c.val) && decide (c.val ≤ 'z'.val)) := rfl
  have hdigit : c.isDigit = (decide ('0'.val ≤ c.val) && decide (c.val ≤ '9'.val)) := rfl
  simp only [isSmallOrDigit, hlower, hdigit, Bool.or_eq_true, Bool.and_eq_true, decide_eq_true_eq,
    Char.le_def]

/-- What stands before a noun at the end of a text. -/
theorem reverse_drop_of_append (stem : List Char) (noun : String) :
    (stem ++ noun.toList).reverse.drop noun.length = stem.reverse := by
  rw [List.reverse_append, List.drop_left' (by rw [List.length_reverse, String.length_toList])]

theorem endsWithNoun_iff : endsWithNoun cs = true ↔ ∃ stem c, ∃ noun ∈ nouns,
    cs = stem ++ c :: noun.toList ∧ (c.isLower = true ∨ c.isDigit = true) := by
  rw [endsWithNoun, List.any_eq_true]
  constructor
  · rintro ⟨noun, hnoun, h⟩
    obtain ⟨hsuffix, hbefore⟩ := Bool.and_eq_true_iff.1 h
    obtain ⟨front, rfl⟩ := List.isSuffixOf_iff_suffix.1 hsuffix
    rw [reverse_drop_of_append] at hbefore
    split at hbefore
    · cases hbefore
    · rename_i c rest hfront
      obtain rfl : front = rest.reverse ++ [c] := by simpa using congrArg List.reverse hfront
      exact ⟨rest.reverse, c, noun, hnoun, by simp, isSmallOrDigit_iff.1 hbefore⟩
  · rintro ⟨stem, c, noun, hnoun, hcs, hc⟩
    obtain rfl : cs = (stem ++ [c]) ++ noun.toList := by rw [hcs, List.append_assoc]; rfl
    refine ⟨noun, hnoun, Bool.and_eq_true_iff.2 ⟨?_, ?_⟩⟩
    · exact List.isSuffixOf_iff_suffix.2 (List.suffix_append _ _)
    · rw [reverse_drop_of_append, List.reverse_append]
      exact isSmallOrDigit_iff.2 hc

/-! ## Names -/

section Names

variable {name : String}

theorem holdsWord_iff :
    (startsWithWord name.toList = true ∨ wordAfterUnderscore name.toList = true) ↔
      ∃ before w after : String, name = before ++ w ++ after ∧
        (before = "" ∨ before.toList.getLast? = some '_') ∧
        (∃ word ∈ words, EqualFolded w.toList word.toList) ∧
        (after = "" ∨ ∃ c ∈ after.toList.head?, c = '_' ∨ isDecimalDigit c = true) := by
  rw [startsWithWord_or_wordAfterUnderscore_iff]
  simp only [startsWithWord_iff, endsWord_iff]
  constructor
  · rintro ⟨before, _, hname, hbefore, w, after, rfl, hw, hafter⟩
    refine ⟨.ofList before, .ofList w, .ofList after, String.toList_injective ?_, ?_, ?_, ?_⟩
    · simp [hname]
    · simpa using hbefore
    · simpa using hw
    · simpa using hafter
  · rintro ⟨before, w, after, rfl, hbefore, hw, hafter⟩
    refine ⟨before.toList, w.toList ++ after.toList, by simp, ?_, w.toList, after.toList, rfl, hw, ?_⟩
    · simpa using hbefore
    · simpa using hafter

theorem endsInNoun_iff : endsWithNoun name.toList = true ↔ ∃ stem c, ∃ noun ∈ nouns,
    name = String.push stem c ++ noun ∧ (c.isLower = true ∨ c.isDigit = true) := by
  rw [endsWithNoun_iff]
  constructor
  · rintro ⟨stem, c, noun, hnoun, hname, hc⟩
    refine ⟨.ofList stem, c, noun, hnoun, String.toList_injective ?_, hc⟩
    simp [hname]
  · rintro ⟨stem, c, noun, hnoun, rfl, hc⟩
    exact ⟨stem.toList, c, noun, hnoun, by simp, hc⟩

end Names

/-- A Kelvin sign is a `k`, a digit of another script ends a word, and where one word fits but goes
on, a longer one may end well. -/
example : Names.looksLikeLock {} "db_LOC\u212A\u0663x" = true ∧
    Names.looksLikeLock {} "semaphore_pool" = true ∧ Names.looksLikeLock {} "un_locked" = false := by
  decide +kernel

end Interlock.Lock
