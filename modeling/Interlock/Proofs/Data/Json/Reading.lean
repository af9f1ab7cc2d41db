import Interlock.Data.Json.Reader
import Interlock.Proofs.Data.Json.Tokens

/-!
# Reading what was written

The reader takes the tokens of a value, wherever the value may stand, and places the value there
(`Takes`). With the scanner's half this gives `read?_pretty`: the text of a value that JSON can
hold exactly is read as this value.
-/

namespace Interlock.Data.Json

/-- The state behind some tokens. -/
def readFrom (r : Reader) (ts : List Token) : Option Reader := ts.foldlM Reader.step r

theorem readFrom_cons {r s : Reader} {t : Token} (h : r.step t = some s) (ts : List Token) :
    readFrom r (t :: ts) = readFrom s ts := by
  rw [readFrom, List.foldlM_cons, h]
  rfl

/-- A value starts alike behind the bracket of a list and wherever else it may come. -/
theorem readFrom_firstItem (v : Value) (stack : List Frame) (rest : List Token) :
    readFrom ⟨stack, .firstItem⟩ (tokens v ++ rest) =
      readFrom ⟨stack, .value⟩ (tokens v ++ rest) := by
  fun_cases tokens v <;> rfl

/-- Where a value may come, the tokens of the value put it in its place. -/
def Takes (v : Value) : Prop :=
  ∀ stack rest, readFrom ⟨stack, .value⟩ (tokens v ++ rest) = readFrom (Reader.place v stack) rest

/-- The items of a list after the first join those read before. -/
theorem readFrom_itemTokens {items : List Value} (h : ∀ v ∈ items, Takes v) (done : List Value)
    (outer : List Frame) (rest : List Token) :
    readFrom ⟨.list done :: outer, .comma⟩ (itemTokens items ++ rest) =
      readFrom ⟨.list (items.reverse ++ done) :: outer, .comma⟩ rest := by
  induction items generalizing done with
  | nil => rfl
  | cons v items ih =>
    calc readFrom ⟨.list done :: outer, .comma⟩ (itemTokens (v :: items) ++ rest)
        = readFrom ⟨.list done :: outer, .value⟩ (tokens v ++ (itemTokens items ++ rest)) := by
          rw [itemTokens, List.cons_append, List.cons_append, List.append_assoc,
            readFrom_cons rfl]
      _ = readFrom ⟨.list (v :: done) :: outer, .comma⟩ (itemTokens items ++ rest) :=
          h v (by simp) _ _
      _ = readFrom ⟨.list ((v :: items).reverse ++ done) :: outer, .comma⟩ rest := by
          rw [ih fun w hw => h w (by simp [hw])]
          simp

/-- The fields of a table as the reader keeps them, the latest first. -/
def keptFields (fields : List (String × Value)) : List (Value × Value) :=
  fields.reverse.map fun f => (.text f.1, f.2)

theorem namedFields?_keptFields (fields : List (String × Value)) :
    namedFields? (keptFields fields).reverse = some fields := by
  rw [keptFields, ← List.map_reverse, List.reverse_reverse]
  induction fields with
  | nil => rfl
  | cons f fields ih => simp [namedFields?, ih]

theorem readFrom_fieldTokens {fields : List (String × Value)} (h : ∀ f ∈ fields, Takes f.2)
    (done : List (String × Value)) (outer : List Frame) (rest : List Token) :
    readFrom ⟨.table (keptFields done) .null :: outer, .comma⟩ (fieldTokens fields ++ rest) =
      readFrom ⟨.table (keptFields (done ++ fields)) .null :: outer, .comma⟩ rest := by
  induction fields generalizing done with
  | nil => simp [fieldTokens]
  | cons f fields ih =>
    obtain ⟨name, v⟩ := f
    have hkept : keptFields (done ++ [(name, v)]) = (.text name, v) :: keptFields done := by
      simp [keptFields]
    calc readFrom ⟨.table (keptFields done) .null :: outer, .comma⟩
          (fieldTokens ((name, v) :: fields) ++ rest)
        = readFrom ⟨.table (keptFields done) (.text name) :: outer, .value⟩
            (tokens v ++ (fieldTokens fields ++ rest)) := by
          simp only [fieldTokens, List.cons_append, List.append_assoc]
          rw [readFrom_cons rfl, readFrom_cons rfl, readFrom_cons rfl]
      _ = readFrom ⟨.table (keptFields (done ++ [(name, v)])) .null :: outer, .comma⟩
            (fieldTokens fields ++ rest) := by
          rw [hkept]
          exact h (name, v) (by simp) _ _
      _ = readFrom ⟨.table (keptFields (done ++ (name, v) :: fields)) .null :: outer, .comma⟩
            rest := by
          rw [ih fun f hf => h f (by simp [hf])]
          simp

theorem takes_list {items : List Value} (h : ∀ v ∈ items, Takes v) : Takes (.list items) := by
  intro stack rest
  cases items with
  | nil => exact (readFrom_cons rfl _).trans (readFrom_cons rfl rest)
  | cons v items =>
    calc readFrom ⟨stack, .value⟩ (tokens (.list (v :: items)) ++ rest)
        = readFrom ⟨.list [] :: stack, .firstItem⟩
            (tokens v ++ (itemTokens items ++ .closeList :: rest)) := by
          simp only [tokens, List.cons_append, List.append_assoc, List.nil_append]
          rw [readFrom_cons rfl]
      _ = readFrom ⟨.list [v] :: stack, .comma⟩ (itemTokens items ++ .closeList :: rest) :=
          (readFrom_firstItem v _ _).trans (h v (by simp) _ _)
      _ = readFrom ⟨.list (items.reverse ++ [v]) :: stack, .comma⟩ (.closeList :: rest) :=
          readFrom_itemTokens (fun w hw => h w (by simp [hw])) ..
      _ = readFrom (Reader.place (.list (v :: items)) stack) rest := by
          rw [readFrom_cons rfl]
          simp

theorem takes_table {fields : List (String × Value)} (h : ∀ f ∈ fields, Takes f.2) :
    Takes (.table fields) := by
  intro stack rest
  cases fields with
  | nil => exact (readFrom_cons rfl _).trans (readFrom_cons rfl rest)
  | cons f fields =>
    obtain ⟨name, v⟩ := f
    have hclose : Reader.step ⟨.table (keptFields ((name, v) :: fields)) .null :: stack, .comma⟩
        .closeTable = some (Reader.place (.table ((name, v) :: fields)) stack) := by
      simp [Reader.step, Reader.closeTable?, namedFields?_keptFields]
    calc readFrom ⟨stack, .value⟩ (tokens (.table ((name, v) :: fields)) ++ rest)
        = readFrom ⟨.table [] (.text name) :: stack, .value⟩
            (tokens v ++ (fieldTokens fields ++ .closeTable :: rest)) := by
          simp only [tokens, List.cons_append, List.append_assoc, List.nil_append]
          rw [readFrom_cons rfl, readFrom_cons rfl, readFrom_cons rfl]
      _ = readFrom ⟨.table (keptFields [(name, v)]) .null :: stack, .comma⟩
            (fieldTokens fields ++ .closeTable :: rest) := h (name, v) (by simp) _ _
      _ = readFrom ⟨.table (keptFields ((name, v) :: fields)) .null :: stack, .comma⟩
            (.closeTable :: rest) :=
          readFrom_fieldTokens (fun f hf => h f (by simp [hf])) [(name, v)] stack _
      _ = readFrom (Reader.place (.table ((name, v) :: fields)) stack) rest :=
          readFrom_cons hclose rest

theorem Plain.takes {v : Value} (h : Plain v) : Takes v := by
  induction h with
  | null | bool | int | text => exact fun stack rest => readFrom_cons rfl rest
  | list items _ ih => exact takes_list ih
  | table fields _ ih => exact takes_table ih

/-- The text of a value is read as the value. -/
theorem read?_pretty {v : Value} (h : Plain v) : read? (pretty v) = some v := by
  have hread : (tokens v).foldlM Reader.step Reader.start = some ⟨[], .nothing v⟩ := by
    have := h.takes [] []
    rwa [List.append_nil] at this
  rw [read?, pretty, String.toList_ofList, Token.scan_prettyChars h]
  change ((tokens v).foldlM Reader.step Reader.start).bind Reader.result? = some v
  rw [hread]
  rfl

end Interlock.Data.Json
