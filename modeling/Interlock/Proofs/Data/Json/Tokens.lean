import Interlock.Data.Json.Printer
import Interlock.Data.Json.Token
import Mathlib.Data.List.TakeWhile

/-!
# The tokens of a written value

`Json.tokens` says which tokens a value consists of. For a value that JSON can hold exactly
(`Json.Plain`) the scanner cuts the written text into these tokens, `Token.scan_prettyChars`.

Every lemma on the way is about a piece of text and whatever follows it. A number or a bare word
lasts until some other character comes, so what follows has to end it (`Ends`).
-/

namespace Interlock.Data.Json

open Number

/-- A value whose text stands for it alone: there is no double in it, nothing unreadable, and
every integer has 64 bits, signed or unsigned. -/
inductive Plain : Value → Prop where
  | null : Plain .null
  | bool (b : Bool) : Plain (.bool b)
  | int (i : Int) (hlow : -(Nat.pow 2 63 : Nat) ≤ i) (hhigh : i ≤ maxSignificand) : Plain (.int i)
  | text (s : String) : Plain (.text s)
  | list (items : List Value) (h : ∀ v ∈ items, Plain v) : Plain (.list items)
  | table (fields : List (String × Value)) (h : ∀ f ∈ fields, Plain f.2) : Plain (.table fields)

mutual

/-- The tokens of a value. -/
def tokens : Value → List Token
  | .list [] => [.openList, .closeList]
  | .list (v :: items) => .openList :: tokens v ++ itemTokens items ++ [.closeList]
  | .table [] => [.openTable, .closeTable]
  | .table ((name, v) :: fields) =>
    .openTable :: .literal (.text name) :: .colon :: tokens v ++ fieldTokens fields ++
      [.closeTable]
  | v => [.literal v]

/-- The tokens of the items of a list after the first. -/
def itemTokens : List Value → List Token
  | [] => []
  | v :: rest => .comma :: tokens v ++ itemTokens rest

/-- The tokens of the fields of a table after the first. -/
def fieldTokens : List (String × Value) → List Token
  | [] => []
  | (name, v) :: rest =>
    .comma :: .literal (.text name) :: .colon :: tokens v ++ fieldTokens rest

end

/-! ## Digits -/

theorem ofDigits_toDigits (n : Nat) : ofDigits (Nat.toDigits 10 n) = n := by
  have h : Nat.ofDigitChars 10 (Nat.toDigits 10 n) 0 = n := Nat.ofDigitChars_ten_toDigits
  rwa [Nat.ofDigitChars_eq_foldl] at h

theorem isDigit_of_mem_toDigits {n : Nat} {c : Char} (hc : c ∈ Nat.toDigits 10 n) :
    c.isDigit = true :=
  Nat.isDigit_of_mem_toDigits (by decide) (by decide) hc

/-- Only zero is written with a zero in front. -/
theorem eq_zero_of_head?_toDigits {n : Nat} (h : (Nat.toDigits 10 n).head? = some '0') : n = 0 := by
  induction n using Nat.strongRecOn with
  | ind n ih =>
    by_cases hn : n < 10
    · rw [Nat.toDigits_of_lt_base hn, List.head?_cons, Option.some.injEq,
        Nat.digitChar_eq_zero] at h
      exact h
    · have hle : 10 ≤ n := by omega
      have hhead : (Nat.toDigits 10 (n / 10)).head? = some '0' := by
        obtain ⟨d, ds, hds⟩ := List.exists_cons_of_ne_nil (Nat.toDigits_ne_nil (n := n / 10))
        rw [Nat.toDigits_of_base_le (by decide) hle, hds] at h
        rwa [hds]
      have := ih (n / 10) (by omega) hhead
      omega

/-- There are no zeros in front of a number of several digits. -/
theorem length_toDigits_of_head? {n : Nat} (h : (Nat.toDigits 10 n).head? = some '0') :
    (Nat.toDigits 10 n).length ≤ 1 := by
  rw [eq_zero_of_head?_toDigits h]
  decide

/-- Digits alone, without or with a sign in front of them, are a literal of nothing but these. -/
theorem readNumber?_digits {ds : List Char} (hne : ds ≠ []) (hall : ∀ c ∈ ds, c.isDigit = true)
    (hzero : ds.head? = some '0' → ds.length ≤ 1) :
    readNumber? ds = some (Literal.mk false ds none none).value ∧
      readNumber? ('-' :: ds) = some (Literal.mk true ds none none).value := by
  have htake : ds.takeWhile Char.isDigit = ds := List.takeWhile_eq_self_iff.mpr hall
  have hdrop : ds.dropWhile Char.isDigit = [] := List.dropWhile_eq_nil_iff.mpr hall
  constructor
  · have hsign : ∀ rest, ds ≠ '-' :: rest := by
      rintro rest rfl
      exact absurd (hall '-' (by simp)) (by decide)
    unfold readNumber?
    split
    next negative rest heq =>
      split at heq
      · exact absurd rfl (hsign _)
      · obtain ⟨rfl, rfl⟩ := Prod.mk.inj heq
        simpa [htake, hdrop, hne, readPower?] using hzero
  · simpa [readNumber?, htake, hdrop, hne, readPower?] using hzero

theorem value_digits {n : Nat} (h : n ≤ maxSignificand) :
    (Literal.mk false (Nat.toDigits 10 n) none none).value = .int n := by
  simp [Literal.value, ofDigits_toDigits, h]

theorem value_signed_digits {n : Nat} (h : 0 < n ∧ n ≤ Nat.pow 2 63) :
    (Literal.mk true (Nat.toDigits 10 n) none none).value = .int (-n) := by
  simp [Literal.value, ofDigits_toDigits, h]

/-- A written integer of 64 bits is a literal for it. -/
theorem readNumber?_integer {i : Int} (hlow : -(Nat.pow 2 63 : Nat) ≤ i)
    (hhigh : i ≤ maxSignificand) : readNumber? (integer i) = some (.int i) := by
  have hdigits := readNumber?_digits (Nat.toDigits_ne_nil (n := i.natAbs))
    (fun c => isDigit_of_mem_toDigits) length_toDigits_of_head?
  by_cases hi : i < 0
  · have hneg : -(i.natAbs : Int) = i := by omega
    rw [integer, if_pos hi, hdigits.2, value_signed_digits (by omega), hneg]
  · have hpos : (i.natAbs : Int) = i := by omega
    rw [integer, if_neg hi, hdigits.1, value_digits (by omega), hpos]

/-! ## Scanning from a point on -/

/-- The tokens of a text whose first part has brought the scanner to `s`. -/
def scanFrom (s : Scanner) (cs : List Char) : Option (List Token) := do
  let s ← cs.foldlM Scanner.step s
  let s ← s.settle
  return s.tokens.reverse

theorem scanFrom_cons (s : Scanner) (c : Char) (cs : List Char) :
    scanFrom s (c :: cs) = (s.step c).bind fun t => scanFrom t cs := by
  simp [scanFrom, List.foldlM_cons, Option.bind_assoc]

/-- Goes on behind a character. -/
theorem scanFrom_cons_of_step {s t : Scanner} {c : Char} (h : s.step c = some t) (cs : List Char) :
    scanFrom s (c :: cs) = scanFrom t cs := by
  rw [scanFrom_cons, h, Option.bind_some]

/-- A text that neither a number nor a bare word runs on into. -/
def Ends (cs : List Char) : Prop := ∀ c ∈ cs.head?, inNumber c = false ∧ c.isLower = false

theorem ends_nil : Ends [] := by simp [Ends]

theorem ends_cons {c : Char} (h : inNumber c = false ∧ c.isLower = false) (cs : List Char) :
    Ends (c :: cs) := by
  simpa [Ends] using h

theorem ends_newline (level : Nat) (cs : List Char) : Ends (newline level ++ cs) :=
  ends_cons (by decide) _

theorem scanFrom_newline (before : List Token) (level : Nat) (rest : List Char) :
    scanFrom ⟨before, .between⟩ (newline level ++ rest) = scanFrom ⟨before, .between⟩ rest := by
  have hblanks : ∀ n, scanFrom ⟨before, .between⟩ (List.replicate n ' ' ++ rest) =
      scanFrom ⟨before, .between⟩ rest := by
    intro n
    induction n with
    | zero => rfl
    | succ n ih => exact ih
  exact hblanks (2 * level)

/-! ## Numbers and words -/

/-- A number or a word ends where some other character follows, and at the end of the text. -/
theorem scanFrom_of_settle {s t : Scanner} {rest : List Char} (hrest : Ends rest)
    (hmode : (∃ read, s.mode = .number read) ∨ ∃ read, s.mode = .word read)
    (hsettle : s.settle = some t) (ht : t.mode = .between) :
    scanFrom s rest = scanFrom t rest := by
  cases rest with
  | nil =>
    have hdone : t.settle = some t := by simp [Scanner.settle, ht]
    simp [scanFrom, hsettle, hdone]
  | cons c rest =>
    have hc := hrest c (by simp)
    have hstep : s.step c = t.step c := by
      rcases hmode with ⟨read, hread⟩ | ⟨read, hread⟩ <;>
        simp [Scanner.step, hread, hc, hsettle, ht]
    rw [scanFrom_cons, scanFrom_cons, hstep]

theorem step_number {before : List Token} {read : List Char} {c : Char} (hc : c.isDigit = true) :
    Scanner.step ⟨before, .number read⟩ c = some ⟨before, .number (c :: read)⟩ := by
  simp [Scanner.step, inNumber, hc]

theorem scanFrom_digits (before : List Token) (read : List Char) {ds : List Char}
    (hall : ∀ c ∈ ds, c.isDigit = true) (rest : List Char) :
    scanFrom ⟨before, .number read⟩ (ds ++ rest) =
      scanFrom ⟨before, .number (ds.reverse ++ read)⟩ rest := by
  induction ds generalizing read with
  | nil => rfl
  | cons c ds ih =>
    rw [List.cons_append, scanFrom_cons_of_step (step_number (hall c (by simp))),
      ih (c :: read) fun d hd => hall d (by simp [hd])]
    simp

/-- A digit between two tokens starts a number. -/
theorem step_between_digit {before : List Token} {c : Char} (hc : c.isDigit = true) :
    Scanner.step ⟨before, .between⟩ c = some ⟨before, .number [c]⟩ := by
  change Scanner.begin? before c = _
  have hspace : isSpace c = false := by
    rw [Bool.eq_false_iff]
    intro hblank
    simp only [isSpace, Bool.or_eq_true, decide_eq_true_eq] at hblank
    rcases hblank with ((rfl | rfl) | rfl) | rfl <;> exact absurd hc (by decide)
  unfold Scanner.begin?
  split
  case h_8 => simp [hspace, hc]
  -- no punctuation mark is a digit
  all_goals exact absurd hc (by decide)

theorem scanFrom_integer {i : Int} (hlow : -(Nat.pow 2 63 : Nat) ≤ i) (hhigh : i ≤ maxSignificand)
    (before : List Token) {rest : List Char} (hrest : Ends rest) :
    scanFrom ⟨before, .between⟩ (integer i ++ rest) =
      scanFrom ⟨.literal (.int i) :: before, .between⟩ rest := by
  have hread : scanFrom ⟨before, .between⟩ (integer i ++ rest) =
      scanFrom ⟨before, .number (integer i).reverse⟩ rest := by
    obtain ⟨d, ds, hds⟩ :=
      List.exists_cons_of_ne_nil (Nat.toDigits_ne_nil (n := i.natAbs) (b := 10))
    have hall : ∀ c ∈ d :: ds, c.isDigit = true := fun c hc =>
      isDigit_of_mem_toDigits (hds ▸ hc)
    unfold integer
    split
    · rw [hds, List.cons_append, scanFrom_cons_of_step rfl, scanFrom_digits _ _ hall,
        List.reverse_cons (a := '-')]
    · rw [hds, List.cons_append, scanFrom_cons_of_step (step_between_digit (hall d (by simp))),
        scanFrom_digits _ _ fun c hc => hall c (by simp [hc]), List.reverse_cons]
  rw [hread]
  apply scanFrom_of_settle hrest (.inl ⟨_, rfl⟩) _ rfl
  simp [Scanner.settle, readNumber?_integer hlow hhigh]

/-- A bare word stands for its value. -/
theorem scanFrom_word (read : List Char) {v : Value} (hword : word? read.reverse = some v)
    (before : List Token) {rest : List Char} (hrest : Ends rest) :
    scanFrom ⟨before, .word read⟩ rest = scanFrom ⟨.literal v :: before, .between⟩ rest := by
  apply scanFrom_of_settle hrest (.inr ⟨_, rfl⟩) _ rfl
  simp [Scanner.settle, hword]

theorem scanFrom_null (before : List Token) {rest : List Char} (hrest : Ends rest) :
    scanFrom ⟨before, .between⟩ ("null".toList ++ rest) =
      scanFrom ⟨.literal .null :: before, .between⟩ rest :=
  scanFrom_word "null".toList.reverse rfl before hrest

theorem scanFrom_bool (b : Bool) (before : List Token) {rest : List Char} (hrest : Ends rest) :
    scanFrom ⟨before, .between⟩ ((if b then "true".toList else "false".toList) ++ rest) =
      scanFrom ⟨.literal (.bool b) :: before, .between⟩ rest := by
  cases b with
  | false => exact scanFrom_word "false".toList.reverse rfl before hrest
  | true => exact scanFrom_word "true".toList.reverse rfl before hrest

/-! ## Strings -/

theorem hexValue?_hexDigit : ∀ n < 16, hexValue? (hexDigit n) = some n := by decide

theorem pushUnit_of_lt {q : Quoted} {u : Nat} (h : u < 0x20) :
    q.pushUnit u = q.push (Char.ofNat u) := by
  rw [Quoted.pushUnit, if_neg (by omega), if_neg (by omega)]

/-- The six characters that a control character is written with stand for it. -/
theorem scanFrom_unit (before : List Token) (q : Quoted) {c : Char} (hc : c.toNat < 0x20)
    (rest : List Char) :
    scanFrom ⟨before, .quoted q⟩ ('\\' :: 'u' :: '0' :: '0' :: hexDigit (c.toNat / 16) ::
      hexDigit (c.toNat % 16) :: rest) = scanFrom ⟨before, .quoted (q.push c)⟩ rest := by
  have hhigh : hexValue? (hexDigit (c.toNat / 16)) = some (c.toNat / 16) :=
    hexValue?_hexDigit _ (by omega)
  have hlow : hexValue? (hexDigit (c.toNat % 16)) = some (c.toNat % 16) :=
    hexValue?_hexDigit _ (by omega)
  have hcode : 16 * (c.toNat / 16) + c.toNat % 16 = c.toNat := by omega
  have hpush : q.pushUnit c.toNat = q.push c := by rw [pushUnit_of_lt hc, Char.ofNat_toNat]
  have hzeros : scanFrom ⟨before, .quoted q⟩ ('\\' :: 'u' :: '0' :: '0' ::
        hexDigit (c.toNat / 16) :: hexDigit (c.toNat % 16) :: rest) =
      scanFrom ⟨before, .unit q 2 0⟩
        (hexDigit (c.toNat / 16) :: hexDigit (c.toNat % 16) :: rest) := rfl
  have hfirst : Scanner.step ⟨before, .unit q 2 0⟩ (hexDigit (c.toNat / 16)) =
      some ⟨before, .unit q 1 (c.toNat / 16)⟩ := by
    simp [Scanner.step, hhigh]
  have hsecond : Scanner.step ⟨before, .unit q 1 (c.toNat / 16)⟩ (hexDigit (c.toNat % 16)) =
      some ⟨before, .quoted (q.push c)⟩ := by
    simp [Scanner.step, hlow, hcode, hpush]
  rw [hzeros, scanFrom_cons_of_step hfirst, scanFrom_cons_of_step hsecond]

/-- Inside a string, what a character is written as stands for the character. -/
theorem scanFrom_escape (before : List Token) (q : Quoted) (c : Char) (rest : List Char) :
    scanFrom ⟨before, .quoted q⟩ (escape c ++ rest) =
      scanFrom ⟨before, .quoted (q.push c)⟩ rest := by
  unfold escape
  split
  case h_8 hquote hslash _ _ _ _ _ =>
    split
    · next hc => exact scanFrom_unit before q hc rest
    · next hc =>
      apply scanFrom_cons_of_step
      simp only [Scanner.step]
      rw [if_neg hquote, if_neg hslash, if_neg hc]
  all_goals rfl

theorem scanFrom_escapes (before : List Token) (q : Quoted) (cs rest : List Char) :
    scanFrom ⟨before, .quoted q⟩ (cs.flatMap escape ++ rest) =
      scanFrom ⟨before, .quoted (cs.foldl Quoted.push q)⟩ rest := by
  induction cs generalizing q with
  | nil => rfl
  | cons c cs ih =>
    rw [List.flatMap_cons, List.append_assoc, scanFrom_escape, ih, List.foldl_cons]

theorem foldl_push (cs read : List Char) :
    cs.foldl Quoted.push ⟨read, none, true⟩ = ⟨cs.reverse ++ read, none, true⟩ := by
  induction cs generalizing read with
  | nil => rfl
  | cons c cs ih =>
    rw [List.foldl_cons, Quoted.push]
    simpa using ih (c :: read)

/-- A text between quotes is one token. -/
theorem scanFrom_quote (before : List Token) (s : String) (rest : List Char) :
    scanFrom ⟨before, .between⟩ (quote s ++ rest) =
      scanFrom ⟨.literal (.text s) :: before, .between⟩ rest := by
  have hvalue : (s.toList.foldl Quoted.push .start).value = .text s := by
    simp [Quoted.start, foldl_push, Quoted.value]
  calc scanFrom ⟨before, .between⟩ (quote s ++ rest)
      = scanFrom ⟨before, .quoted .start⟩ (s.toList.flatMap escape ++ '"' :: rest) := by
        rw [show quote s ++ rest = '"' :: (s.toList.flatMap escape ++ '"' :: rest) by simp [quote]]
        exact scanFrom_cons_of_step rfl _
    _ = scanFrom ⟨before, .quoted (s.toList.foldl Quoted.push .start)⟩ ('"' :: rest) :=
        scanFrom_escapes ..
    _ = scanFrom ⟨.literal (.text s) :: before, .between⟩ rest := by
        rw [← hvalue]
        exact scanFrom_cons_of_step rfl rest

/-! ## Values -/

/-- The text of a value, on whatever level, is cut into its tokens. -/
def Scans (v : Value) : Prop :=
  ∀ level before rest, Ends rest → scanFrom ⟨before, .between⟩ (prettyChars level v ++ rest) =
    scanFrom ⟨(tokens v).reverse ++ before, .between⟩ rest

theorem ends_prettyItems (level : Nat) (items : List Value) {rest : List Char} (hrest : Ends rest) :
    Ends (prettyItems level items ++ rest) := by
  cases items with
  | nil => simpa [prettyItems] using hrest
  | cons v items => exact ends_cons (by decide) _

theorem ends_prettyFields (level : Nat) (fields : List (String × Value)) {rest : List Char}
    (hrest : Ends rest) : Ends (prettyFields level fields ++ rest) := by
  cases fields with
  | nil => simpa [prettyFields] using hrest
  | cons f fields => exact ends_cons (by decide) _

/-- The items of a list after the first, each behind its comma. -/
theorem scanFrom_prettyItems (level : Nat) {items : List Value} (h : ∀ v ∈ items, Scans v)
    (before : List Token) {rest : List Char} (hrest : Ends rest) :
    scanFrom ⟨before, .between⟩ (prettyItems level items ++ rest) =
      scanFrom ⟨(itemTokens items).reverse ++ before, .between⟩ rest := by
  induction items generalizing before with
  | nil => simp [prettyItems, itemTokens]
  | cons v items ih =>
    have hitems : ∀ w ∈ items, Scans w := fun w hw => h w (by simp [hw])
    calc scanFrom ⟨before, .between⟩ (prettyItems level (v :: items) ++ rest)
        = scanFrom ⟨before, .between⟩ (',' :: (newline level ++
            (prettyChars level v ++ (prettyItems level items ++ rest)))) := by
          simp [prettyItems]
      _ = scanFrom ⟨.comma :: before, .between⟩
            (prettyChars level v ++ (prettyItems level items ++ rest)) := by
          rw [scanFrom_cons_of_step rfl, scanFrom_newline]
      _ = scanFrom ⟨(itemTokens (v :: items)).reverse ++ before, .between⟩ rest := by
          rw [h v (by simp) level _ _ (ends_prettyItems level items hrest), ih hitems]
          simp [itemTokens]

/-- The fields of a table after the first, each behind its comma. -/
theorem scanFrom_prettyFields (level : Nat) {fields : List (String × Value)}
    (h : ∀ f ∈ fields, Scans f.2) (before : List Token) {rest : List Char} (hrest : Ends rest) :
    scanFrom ⟨before, .between⟩ (prettyFields level fields ++ rest) =
      scanFrom ⟨(fieldTokens fields).reverse ++ before, .between⟩ rest := by
  induction fields generalizing before with
  | nil => simp [prettyFields, fieldTokens]
  | cons f fields ih =>
    obtain ⟨name, v⟩ := f
    have hfields : ∀ f ∈ fields, Scans f.2 := fun f hf => h f (by simp [hf])
    calc scanFrom ⟨before, .between⟩ (prettyFields level ((name, v) :: fields) ++ rest)
        = scanFrom ⟨before, .between⟩ (',' :: (newline level ++ (quote name ++ ':' :: ' ' ::
            (prettyChars level v ++ (prettyFields level fields ++ rest))))) := by
          simp [prettyFields]
      _ = scanFrom ⟨.colon :: .literal (.text name) :: .comma :: before, .between⟩
            (prettyChars level v ++ (prettyFields level fields ++ rest)) := by
          rw [scanFrom_cons_of_step rfl, scanFrom_newline, scanFrom_quote,
            scanFrom_cons_of_step rfl, scanFrom_cons_of_step rfl]
      _ = scanFrom ⟨(fieldTokens ((name, v) :: fields)).reverse ++ before, .between⟩ rest := by
          rw [h (name, v) (by simp) level _ _ (ends_prettyFields level fields hrest), ih hfields]
          simp [fieldTokens]

theorem scans_list {items : List Value} (h : ∀ v ∈ items, Scans v) : Scans (.list items) := by
  intro level before rest _
  cases items with
  | nil => rfl
  | cons v items =>
    have hclose : Ends (newline level ++ ']' :: rest) := ends_newline level _
    calc scanFrom ⟨before, .between⟩ (prettyChars level (.list (v :: items)) ++ rest)
        = scanFrom ⟨before, .between⟩ ('[' :: (newline (level + 1) ++
            (prettyChars (level + 1) v ++ (prettyItems (level + 1) items ++
              (newline level ++ ']' :: rest))))) := by
          simp [prettyChars]
      _ = scanFrom ⟨.openList :: before, .between⟩ (prettyChars (level + 1) v ++
            (prettyItems (level + 1) items ++ (newline level ++ ']' :: rest))) := by
          rw [scanFrom_cons_of_step rfl, scanFrom_newline]
      _ = scanFrom ⟨(itemTokens items).reverse ++ ((tokens v).reverse ++ .openList :: before),
            .between⟩ (newline level ++ ']' :: rest) := by
          rw [h v (by simp) _ _ _ (ends_prettyItems _ items hclose),
            scanFrom_prettyItems _ (fun w hw => h w (by simp [hw])) _ hclose]
      _ = scanFrom ⟨(tokens (.list (v :: items))).reverse ++ before, .between⟩ rest := by
          rw [scanFrom_newline, scanFrom_cons_of_step rfl]
          simp [tokens]

theorem scans_table {fields : List (String × Value)} (h : ∀ f ∈ fields, Scans f.2) :
    Scans (.table fields) := by
  intro level before rest _
  cases fields with
  | nil => rfl
  | cons f fields =>
    obtain ⟨name, v⟩ := f
    have hclose : Ends (newline level ++ '\x7d' :: rest) := ends_newline level _
    calc scanFrom ⟨before, .between⟩ (prettyChars level (.table ((name, v) :: fields)) ++ rest)
        = scanFrom ⟨before, .between⟩ ('\x7b' :: (newline (level + 1) ++ (quote name ++
            ':' :: ' ' :: (prettyChars (level + 1) v ++ (prettyFields (level + 1) fields ++
              (newline level ++ '\x7d' :: rest)))))) := by
          simp [prettyChars]
      _ = scanFrom ⟨.colon :: .literal (.text name) :: .openTable :: before, .between⟩
            (prettyChars (level + 1) v ++ (prettyFields (level + 1) fields ++
              (newline level ++ '\x7d' :: rest))) := by
          rw [scanFrom_cons_of_step rfl, scanFrom_newline, scanFrom_quote,
            scanFrom_cons_of_step rfl, scanFrom_cons_of_step rfl]
      _ = scanFrom ⟨(fieldTokens fields).reverse ++ ((tokens v).reverse ++
            .colon :: .literal (.text name) :: .openTable :: before), .between⟩
            (newline level ++ '\x7d' :: rest) := by
          rw [h (name, v) (by simp) _ _ _ (ends_prettyFields _ fields hclose),
            scanFrom_prettyFields _ (fun f hf => h f (by simp [hf])) _ hclose]
      _ = scanFrom ⟨(tokens (.table ((name, v) :: fields))).reverse ++ before, .between⟩ rest := by
          rw [scanFrom_newline, scanFrom_cons_of_step rfl]
          simp [tokens]

theorem Plain.scans {v : Value} (h : Plain v) : Scans v := by
  induction h with
  | null => exact fun level before rest hrest => scanFrom_null before hrest
  | bool b => exact fun level before rest hrest => scanFrom_bool b before hrest
  | int i hlow hhigh =>
    exact fun level before rest hrest => scanFrom_integer hlow hhigh before hrest
  | text s => exact fun level before rest hrest => scanFrom_quote before s rest
  | list items _ ih => exact scans_list ih
  | table fields _ ih => exact scans_table ih

/-- Scanning the text of a value gives its tokens. -/
theorem Token.scan_prettyChars {v : Value} (h : Plain v) (level : Nat) :
    Token.scan (prettyChars level v) = some (tokens v) := by
  have hscan := h.scans level [] [] ends_nil
  rw [List.append_nil, List.append_nil] at hscan
  calc Token.scan (prettyChars level v)
      = scanFrom ⟨(tokens v).reverse, .between⟩ [] := hscan
    _ = some (tokens v) := by simp [scanFrom, Scanner.settle]

end Interlock.Data.Json
