import TypeCatalog.Data.Convert
import TypeCatalog.Proofs.Numerals
import TypeCatalog.Proofs.ObjectFields
import TypeCatalog.Yaml.Write

/-! What is in data, however deep. Data can be written if all of its floating point numbers are finite and none of its
integers has too many digits. -/

namespace TypeCatalog.Proofs

/-- A value is in data: it is the data itself, or in an item or a field of it. -/
inductive Occurs (value : Data) : Data → Prop where
  | here : Occurs value value
  | item {items : List Data} {inner : Data} (listed : inner ∈ items) (within : Occurs value inner) :
      Occurs value (.array items)
  | field {fields : Fields} {key : Key} {inner : Data} (listed : (key, inner) ∈ fields) (within : Occurs value inner) :
      Occurs value (.object fields)

def AllFinite (data : Data) : Prop := ∀ value, Occurs (.real value) data → value.isFinite = true

section
variable {value inner : Data} {items : List Data} {fields : Fields} {entries : List (String × Data)}

theorem occurs_record (name : String) (listed : (name, inner) ∈ entries) (within : Occurs value inner) : Occurs value (.record entries) :=
  .field (List.mem_map_of_mem listed) within

theorem Occurs.inside {outer : Data} (first : Occurs value inner) (second : Occurs inner outer) : Occurs value outer := by
  induction second with
  | here => exact first
  | item listed _ ih => exact .item listed ih
  | field listed _ ih => exact .field listed ih

theorem allFinite_array : AllFinite (.array items) ↔ ∀ item ∈ items, AllFinite item := by
  constructor
  · intro finite item listed value within
    exact finite value (.item listed within)
  · intro each value within
    cases within with
    | item listed within => exact each _ listed value within

theorem allFinite_object : AllFinite (.object fields) ↔ ∀ field ∈ fields, AllFinite field.2 := by
  constructor
  · intro finite field listed value within
    exact finite value (.field listed within)
  · intro each value within
    cases within with
    | field listed within => exact each _ listed value within

theorem allFinite_record : AllFinite (.record entries) ↔ ∀ entry ∈ entries, AllFinite entry.2 := by
  rw [Data.record, allFinite_object, List.forall_mem_map]

theorem allFinite_text (text : String) : AllFinite (.text text) := by
  intro value within
  cases within

theorem allFinite_int (n : Int) : AllFinite (.int n) := by
  intro value within
  cases within

theorem allFinite_bool (value : Bool) : AllFinite (.bool value) := by
  intro value within
  cases within

theorem allFinite_real {value : Double} : AllFinite (.real value) ↔ value.isFinite = true := by
  constructor
  · intro finite
    exact finite value .here
  · intro finite other within
    cases within
    exact finite

private theorem andThen_ok {first second : Except Failure Unit} :
    (first >>= fun _ => second) = .ok () ↔ first = .ok () ∧ second = .ok () := by
  cases first <;> simp [bind, Except.bind]

mutual

theorem checkFinite_ok (data : Data) : Yaml.checkFinite data = .ok () ↔ AllFinite data := by
  match data with
  | .null | .bool _ | .int _ | .text _ =>
    refine iff_of_true rfl ?_
    intro value within
    cases within
  | .real value =>
    rw [allFinite_real, Yaml.checkFinite]
    cases value.isFinite <;> simp
  | .array items => rw [allFinite_array, Yaml.checkFinite, checkItems_ok items]
  | .object fields => rw [allFinite_object, Yaml.checkFinite, checkFields_ok fields]
termination_by structural data

private theorem checkItems_ok (items : List Data) : Yaml.checkItems items = .ok () ↔ ∀ item ∈ items, AllFinite item := by
  match items with
  | [] => simp [Yaml.checkItems]
  | item :: rest =>
    rw [Yaml.checkItems, List.forall_mem_cons, ← checkFinite_ok item, ← checkItems_ok rest]
    exact andThen_ok
termination_by structural items

private theorem checkFields_ok (fields : List (Key × Data)) :
    Yaml.checkFields fields = .ok () ↔ ∀ field ∈ fields, AllFinite field.2 := by
  match fields with
  | [] => simp [Yaml.checkFields]
  | (key, value) :: rest =>
    rw [Yaml.checkFields, List.forall_mem_cons, ← checkFinite_ok value, ← checkFields_ok rest]
    exact andThen_ok
termination_by structural fields

end

theorem writable_array : (Data.array items).isWritable = true ↔ ∀ item ∈ items, item.isWritable = true := by
  rw [Data.isWritable]
  induction items with
  | nil => simp [Data.areWritable]
  | cons item rest ih => rw [Data.areWritable, Bool.and_eq_true, ih, List.forall_mem_cons]

theorem writable_record : (Data.record entries).isWritable = true ↔ ∀ entry ∈ entries, entry.2.isWritable = true := by
  rw [Data.record, Data.isWritable]
  induction entries with
  | nil => simp [Data.fieldsAreWritable]
  | cons entry rest ih =>
    rw [List.map_cons, Data.fieldsAreWritable, Bool.and_eq_true, ih, List.forall_mem_cons]
    simp [Key.isWritable]

theorem writable_object (writable : (Data.object fields).isWritable = true) :
    ∀ field ∈ fields, field.2.isWritable = true := by
  rw [Data.isWritable] at writable
  induction fields with
  | nil => exact nofun
  | cons field rest ih =>
    rw [Data.fieldsAreWritable, Bool.and_eq_true, Bool.and_eq_true] at writable
    exact List.forall_mem_cons.mpr ⟨writable.1.2, ih writable.2⟩

end

theorem writable_int {n : Int} : (Data.int n).isWritable = true ↔ n.natAbs < Nat.pow 10 digitLimit := by
  rw [Data.isWritable, writeInt?, ← length_natDigits_le_iff (by decide)]
  split <;> simp_all

end TypeCatalog.Proofs
