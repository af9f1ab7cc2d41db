import Interlock.Text.Fold
import Interlock.Text.Lower

/-!
# Simple case folding

`simpleFold` is the simple case folding of a character of any script, and `EqualFolded` compares
texts by it. Folding is lower case, apart from the letters of `foldingRuns`: small letters with
another small letter for the same capital, ligatures and accents with a twin, and the Cherokee
letters, which fold to the capital.

The test for a word of ASCII letters need not know the table. What folds to such a letter are the
letter, its capital, the Kelvin sign and the long s (`foldsTo_iff`), so that `stripFolded?` takes
off just the beginnings that equal the word up to folding (`stripFolded?_eq_some_iff`).
-/

namespace Interlock.Text

/-- The code points whose folding is not their lower case. -/
def foldingRuns : List CaseRun :=
  [⟨0x00B5, 0x00B5, 1, 775⟩, ⟨0x017F, 0x017F, 1, -268⟩, ⟨0x0345, 0x0345, 1, 116⟩,
    ⟨0x03C2, 0x03C2, 1, 1⟩, ⟨0x03D0, 0x03D0, 1, -30⟩, ⟨0x03D1, 0x03D1, 1, -25⟩,
    ⟨0x03D5, 0x03D5, 1, -15⟩, ⟨0x03D6, 0x03D6, 1, -22⟩, ⟨0x03F0, 0x03F0, 1, -54⟩,
    ⟨0x03F1, 0x03F1, 1, -48⟩, ⟨0x03F5, 0x03F5, 1, -64⟩, ⟨0x13A0, 0x13F5, 1, 0⟩,
    ⟨0x13F8, 0x13FD, 1, -8⟩, ⟨0x1C80, 0x1C80, 1, -6222⟩, ⟨0x1C81, 0x1C81, 1, -6221⟩,
    ⟨0x1C82, 0x1C82, 1, -6212⟩, ⟨0x1C83, 0x1C84, 1, -6210⟩, ⟨0x1C85, 0x1C85, 1, -6211⟩,
    ⟨0x1C86, 0x1C86, 1, -6204⟩, ⟨0x1C87, 0x1C87, 1, -6180⟩, ⟨0x1C88, 0x1C88, 1, 35267⟩,
    ⟨0x1E9B, 0x1E9B, 1, -58⟩, ⟨0x1FBE, 0x1FBE, 1, -7173⟩, ⟨0x1FD3, 0x1FD3, 1, -7235⟩,
    ⟨0x1FE3, 0x1FE3, 1, -7219⟩, ⟨0xAB70, 0xABBF, 1, -38864⟩, ⟨0xFB05, 0xFB05, 1, 1⟩]

/-- The simple case folding of a character. -/
def simpleFold (c : Char) : Char :=
  match (foldingRuns ++ lowerRanges).find? fun r => r.covers c.toNat with
  | some r => Char.ofNat (c.toNat + r.shift).toNat
  | none => c

/-- Two texts are equal up to simple case folding. -/
def EqualFolded (s t : List Char) : Prop := s.map simpleFold = t.map simpleFold

instance (s t : List Char) : Decidable (EqualFolded s t) := inferInstanceAs (Decidable (_ = _))

variable {c letter : Char}

/-! ## Small ASCII letters -/

theorem isLower_iff : c.isLower = true ↔ 97 ≤ c.toNat ∧ c.toNat ≤ 122 := by
  have hdef : c.isLower = (decide (c.val ≥ 'a'.val) && decide (c.val ≤ 'z'.val)) := rfl
  simp [hdef, UInt32.le_iff_toNat_le, ← Char.toNat_val]

/-- What holds of the first characters by number holds of each of them. -/
theorem forall_lt {P : Char → Prop} {bound : Nat} (h : ∀ n < bound, P (Char.ofNat n)) (c : Char)
    (hc : c.toNat < bound) : P c := by
  have hn := h c.toNat hc
  rwa [Char.ofNat_toNat] at hn

theorem ofNat_ne_of_isLower {n : Nat} (hletter : letter.isLower = true) (hn : 128 ≤ n) :
    Char.ofNat n ≠ letter := by
  rintro rfl
  rw [isLower_iff] at hletter
  by_cases hvalid : n.isValidChar
  · have hof : Char.ofNat n = Char.ofNatAux n hvalid := dif_pos hvalid
    have hnat : (Char.ofNat n).toNat = n := congrArg Char.toNat hof
    omega
  · have hof : Char.ofNat n = ⟨0, .inl (by decide)⟩ := dif_neg hvalid
    have hnat : (Char.ofNat n).toNat = 0 := congrArg Char.toNat hof
    omega

theorem ne_of_le (hletter : letter.isLower = true) (h : 128 ≤ c.toNat) : c ≠ letter := by
  rintro rfl
  rw [isLower_iff] at hletter
  omega

theorem toLower_of_le (h : 128 ≤ c.toNat) : c.toLower = c := by
  have hupper : ¬ (c.val ≥ 'A'.val ∧ c.val ≤ 'Z'.val) := by
    rintro ⟨-, hle⟩
    have hnat : c.toNat ≤ 'Z'.toNat := UInt32.le_iff_toNat_le.1 hle
    exact absurd (Nat.le_trans h hnat) (by decide)
  exact dif_neg hupper

theorem find?_covers_eq_none {runs : List CaseRun} {n : Nat} (hruns : ∀ r ∈ runs, 128 ≤ r.first)
    (hn : n < 128) : (runs.find? fun r => r.covers n) = none := by
  rw [List.find?_eq_none]
  intro r hr hcovers
  simp only [CaseRun.covers, Bool.and_eq_true, decide_eq_true_eq] at hcovers
  have := hruns r hr
  omega

/-- The run of the ASCII capitals. -/
def asciiCapitals : CaseRun := ⟨0x41, 0x5A, 1, 32⟩

theorem find?_covers_of_lt {n : Nat} (hn : n < 128) :
    ((foldingRuns ++ lowerRanges).find? fun r => r.covers n) =
      if asciiCapitals.covers n then some asciiCapitals else none := by
  have hcapitals : lowerRanges = asciiCapitals :: lowerRanges.tail := rfl
  rw [hcapitals, List.find?_append, find?_covers_eq_none (by decide +kernel) hn, Option.none_or,
    List.find?_cons, find?_covers_eq_none (by decide +kernel) hn]
  cases asciiCapitals.covers n <;> rfl

/-- In ASCII, folding is lower case. -/
theorem simpleFold_of_lt (h : c.toNat < 128) : simpleFold c = c.toLower := by
  have hcapital : ∀ c : Char, c.toNat < 128 → asciiCapitals.covers c.toNat = true →
      Char.ofNat (c.toNat + asciiCapitals.shift).toNat = c.toLower :=
    forall_lt (by decide +kernel)
  have hother : ∀ c : Char, c.toNat < 128 → asciiCapitals.covers c.toNat = false →
      c = c.toLower :=
    forall_lt (by decide +kernel)
  rw [simpleFold, find?_covers_of_lt h]
  cases hcovers : asciiCapitals.covers c.toNat with
  | true => exact hcapital c h hcovers
  | false => exact hother c h hcovers

/-- A run from 128 on stays there, except for the two characters that fold into ASCII. -/
theorem le_shift_of_mem : ∀ r ∈ foldingRuns ++ lowerRanges, 128 ≤ r.last →
    (r.first = r.last ∧ r.first ∈ [0x212A, 0x017F]) ∨ (128 : Int) ≤ r.first + r.shift := by
  decide +kernel

theorem simpleFold_ne_of_le (hletter : letter.isLower = true) (h : 128 ≤ c.toNat)
    (hkelvin : c.toNat ≠ 0x212A) (hlong : c.toNat ≠ 0x017F) : simpleFold c ≠ letter := by
  unfold simpleFold
  split
  · rename_i r hr
    have hcovers := List.find?_some hr
    simp only [CaseRun.covers, Bool.and_eq_true, decide_eq_true_eq] at hcovers
    rcases le_shift_of_mem r (List.mem_of_find?_eq_some hr) (by omega) with ⟨heq, hmem⟩ | hle
    · simp only [List.mem_cons, List.not_mem_nil, or_false] at hmem
      omega
    · exact ofNat_ne_of_isLower hletter (by omega)
  · exact ne_of_le hletter h

/-- **What folds to a small ASCII letter.** -/
theorem foldsTo_iff (hletter : letter.isLower = true) :
    foldsTo c letter = true ↔ simpleFold c = letter := by
  rw [foldsTo, decide_eq_true_eq, fold]
  by_cases hkelvin : c.toNat = 0x212A
  · rw [if_pos hkelvin, ← c.ofNat_toNat, hkelvin]
    exact Iff.of_eq (congrArg (· = letter) (by decide +kernel))
  by_cases hlong : c.toNat = 0x017F
  · rw [if_neg hkelvin, if_pos hlong, ← c.ofNat_toNat, hlong]
    exact Iff.of_eq (congrArg (· = letter) (by decide +kernel))
  rw [if_neg hkelvin, if_neg hlong]
  by_cases hascii : c.toNat < 128
  · rw [simpleFold_of_lt hascii]
  · have hle : 128 ≤ c.toNat := Nat.le_of_not_lt hascii
    rw [toLower_of_le hle]
    exact iff_of_false (ne_of_le hletter hle) (simpleFold_ne_of_le hletter hle hkelvin hlong)

/-! ## Words -/

theorem simpleFold_of_isLower (hletter : letter.isLower = true) : simpleFold letter = letter := by
  have hall : ∀ c : Char, c.toNat < 128 → c.isLower = true → c.toLower = c :=
    forall_lt (by decide +kernel)
  have hlt : letter.toNat < 128 := by
    rw [isLower_iff] at hletter
    omega
  rw [simpleFold_of_lt hlt, hall letter hlt hletter]

theorem equalFolded_iff {w word : List Char} (hword : ∀ c ∈ word, c.isLower = true) :
    EqualFolded w word ↔ w.map simpleFold = word := by
  have hmap : word.map simpleFold = word :=
    (List.map_congr_left fun c hc => simpleFold_of_isLower (hword c hc)).trans (List.map_id word)
  unfold EqualFolded
  rw [hmap]

/-- **A word is taken off the texts that start with it up to folding.** -/
theorem stripFolded?_eq_some_iff {word cs rest : List Char}
    (hword : ∀ c ∈ word, c.isLower = true) :
    stripFolded? word cs = some rest ↔ ∃ w, cs = w ++ rest ∧ EqualFolded w word := by
  simp only [equalFolded_iff hword]
  induction word generalizing cs with
  | nil => simp [stripFolded?]
  | cons letter word ih =>
    obtain ⟨hletter, hword⟩ := List.forall_mem_cons.1 hword
    cases cs with
    | nil => simp [stripFolded?]
    | cons c cs =>
      simp only [stripFolded?, foldsTo_iff hletter, Option.ite_none_right_eq_some, ih hword,
        List.map_eq_cons_iff]
      constructor
      · rintro ⟨hc, w, rfl, hw⟩
        exact ⟨c :: w, rfl, c, w, rfl, hc, hw⟩
      · rintro ⟨_, hcs, d, w, rfl, hd, hw⟩
        obtain ⟨rfl, rfl⟩ := List.cons.inj hcs
        exact ⟨hd, w, rfl, hw⟩

end Interlock.Text
