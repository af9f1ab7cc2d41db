import Interlock.Data.Record
import Interlock.Proofs.Data.Json.Reading
import Mathlib.Data.List.Nodup

/-!
# Records in tables

A table in which no name stands twice gives each field of a record the value behind its name
(`Value.slots?_table`). `StandsFor read v a` says that `v` is a plain value which `read` takes for
`a`; the parts of records are put together from the lemmas about it, and
`StandsFor.read?_pretty` carries the whole over to text.
-/

namespace Interlock.Data

namespace Value

/-- What a table says of a name. -/
def slotIn (fields : List (String × Value)) (name : String) : Slot :=
  match fields.find? fun f => f.1 = name with
  | some (_, v) => .given v
  | none => .absent

@[simp] theorem slotIn_nil (name : String) : slotIn [] name = .absent := rfl

@[simp]
theorem slotIn_cons (f : String × Value) (fields : List (String × Value)) (name : String) :
    slotIn (f :: fields) name = if f.1 = name then .given f.2 else slotIn fields name := by
  by_cases h : f.1 = name <;> simp [slotIn, h]

/-- A table with distinct names is not refused. -/
@[simp]
theorem slots?_table {strict : Strictness} {names : List String} {fields : List (String × Value)}
    (h : (fields.map Prod.fst).Nodup) :
    slots? strict names (.table fields) = some (names.map (slotIn fields)) := by
  have honce : ∀ n, (fields.filter fun f => f.1 = n).length ≤ 1 := by
    intro n
    have hcount := List.nodup_iff_count_le_one.mp h n
    rw [List.count, List.countP_map, List.countP_eq_length_filter] at hcount
    exact hcount
  have hany : (names.any fun n => (fields.filter fun f => f.1 = n).length > 1) = false := by
    rw [List.any_eq_false]
    intro n _
    simpa using honce n
  rw [slots?, if_neg (by rw [hany]; decide)]
  rfl

@[simp] theorem text?_text (s : String) : text? (.text s) = some s := rfl

@[simp] theorem bool?_bool (b : Bool) : bool? (.bool b) = some b := rfl

@[simp]
theorem choice?_text {α : Type} (ofName : String → Option α) (s : String) :
    choice? ofName (.text s) = ofName s := rfl

@[simp]
theorem nullable?_text (s : String) : nullable? text? (.text s) = some (some s) := rfl

@[simp]
theorem nullable?_ofText? (o : Option String) : nullable? text? (.ofText? o) = some o := by
  cases o <;> rfl

end Value

namespace Slot

variable {α : Type} (read : Value → Option α)

@[simp] theorem required_given (v : Value) : required read (.given v) = read v := rfl

@[simp]
theorem orDefault_given (fallback : α) (v : Value) :
    orDefault fallback read (.given v) = read v := rfl

@[simp]
theorem orDefault_absent (fallback : α) : orDefault fallback read .absent = some fallback := rfl

@[simp]
theorem optional_ofText? (o : Option String) :
    optional Value.text? (.given (.ofText? o)) = some o := by
  cases o <;> rfl

end Slot

/-! ## Values and what they stand for -/

/-- A plain value that `read` takes for `a`. -/
structure StandsFor {α : Type} (read : Value → Option α) (v : Value) (a : α) : Prop where
  plain : Json.Plain v
  read_eq : read v = some a

namespace StandsFor

variable {α : Type} {read : Value → Option α}

/-- Nothing is lost on the way through the text. -/
theorem read?_pretty {v : Value} {a : α} (h : StandsFor read v a) :
    (Json.read? (Json.pretty v)).bind read = some a := by
  rw [Json.read?_pretty h.plain, Option.bind_some, h.read_eq]

theorem text (s : String) : StandsFor Value.text? (.text s) s := ⟨.text s, rfl⟩

theorem nat {bound n : Nat} (hbound : bound ≤ Nat.pow 2 64) (h : n < bound) :
    StandsFor (Value.nat? bound) (.ofNat n) n := by
  have hmax : n ≤ Json.maxSignificand := by
    unfold Json.maxSignificand
    omega
  refine ⟨.int n (by omega) (by omega), ?_⟩
  simp [Value.nat?, Value.ofNat, h]

theorem line {n : Nat} (h : n < Nat.pow 2 32) : StandsFor Value.line? (.ofNat n) n :=
  nat (by decide) h

theorem word {n : Nat} (h : n < Nat.pow 2 64) : StandsFor Value.word? (.ofNat n) n :=
  nat le_rfl h

/-- A list stands for the list of what its items stand for. -/
theorem list {write : α → Value} {as : List α} (h : ∀ a ∈ as, StandsFor read (write a) a) :
    StandsFor (Value.list? read) (.list (as.map write)) as := by
  constructor
  · refine .list _ fun v hv => ?_
    obtain ⟨a, ha, rfl⟩ := List.mem_map.mp hv
    exact (h a ha).plain
  · change (as.map write).mapM read = some as
    induction as with
    | nil => rfl
    | cons a as ih =>
      rw [List.map_cons, List.mapM_cons, (h a (by simp)).read_eq, ih fun b hb => h b (by simp [hb])]
      rfl

end StandsFor

/-! ## Absent parts -/

@[simp]
theorem Json.plain_ofText? (o : Option String) : Json.Plain (.ofText? o) := by
  cases o with
  | none => exact .null
  | some s => exact .text s

theorem Json.plain_ofNat? {o : Option Nat} (h : ∀ n ∈ o, n < Nat.pow 2 32) :
    Json.Plain (.ofNat? o) := by
  cases o with
  | none => exact .null
  | some n => exact (StandsFor.line (h n rfl)).plain

theorem Slot.optional_ofNat? {o : Option Nat} (h : ∀ n ∈ o, n < Nat.pow 2 32) :
    Slot.optional Value.line? (.given (.ofNat? o)) = some o := by
  cases o with
  | none => rfl
  | some n =>
    have hread : Value.line? (.int n) = some n := (StandsFor.line (h n rfl)).read_eq
    simp [Value.ofNat?, Value.ofNat, Slot.optional, hread]

/-! ## What has been read -/

section Read

variable {α : Type} {read : Value → Option α}

theorem Value.lt_of_nat? {bound n : Nat} {v : Value} (h : v.nat? bound = some n) : n < bound := by
  unfold Value.nat? at h
  split at h
  · simp only [Option.ite_none_right_eq_some, Option.some.injEq] at h
    omega
  · simp at h

theorem Slot.exists_of_required {slot : Slot} {a : α} (h : slot.required read = some a) :
    ∃ v, read v = some a := by
  cases slot with
  | given v => exact ⟨v, h⟩
  | absent | cut => simp [Slot.required] at h

theorem Slot.lt_of_required {bound n : Nat} {slot : Slot}
    (h : slot.required (Value.nat? bound) = some n) : n < bound := by
  obtain ⟨v, hv⟩ := exists_of_required h
  exact Value.lt_of_nat? hv

theorem Slot.lt_of_optional {bound : Nat} {o : Option Nat} {slot : Slot}
    (h : slot.optional (Value.nat? bound) = some o) : ∀ n ∈ o, n < bound := by
  rintro n rfl
  unfold Slot.optional at h
  split at h
  case h_2 v _ =>
    simp only [Option.map_eq_some_iff, Option.some.injEq, exists_eq_right] at h
    exact Value.lt_of_nat? h
  all_goals simp at h

/-- What holds of whatever is read as an item holds of the items of a list. -/
theorem Slot.forall_of_required_list {p : α → Prop} (hread : ∀ v a, read v = some a → p a)
    {slot : Slot} {as : List α} (h : slot.required (Value.list? read) = some as) :
    ∀ a ∈ as, p a := by
  obtain ⟨v, hv⟩ := exists_of_required h
  cases v with
  | list items =>
    change items.mapM read = some as at hv
    clear h
    induction items generalizing as with
    | nil => simp_all
    | cons w items ih =>
      simp only [List.mapM_cons, bind, pure, Option.bind_eq_some_iff, Option.some.injEq] at hv
      obtain ⟨b, hb, bs, hbs, rfl⟩ := hv
      rw [List.forall_mem_cons]
      exact ⟨hread w b hb, ih hbs⟩
  | _ => simp [Value.list?] at hv

end Read

end Interlock.Data
