import TypeCatalog.Document
import TypeCatalog.Proofs.JsonRoundTrip
import TypeCatalog.Proofs.DataParts
import TypeCatalog.Proofs.MarkedData

/-! Data that is refused by the writers of both formats. They go through data in one order, one of them while it writes
and the other one before, and stop at the first number that is not finite. -/

namespace TypeCatalog.Proofs

/-- Data as it is in JSON: the keys of objects are texts, and no integer has too many digits to be written. -/
inductive JsonData : Data → Prop where
  | null : JsonData .null
  | bool (value : Bool) : JsonData (.bool value)
  | int {n : Int} (short : (natDigits n.natAbs).length ≤ digitLimit) : JsonData (.int n)
  | real (value : Double) : JsonData (.real value)
  | text (value : String) : JsonData (.text value)
  | array {items : List Data} (each : ∀ item ∈ items, JsonData item) : JsonData (.array items)
  | object {entries : List (String × Data)} (each : ∀ entry ∈ entries, JsonData entry.2) :
      JsonData (.object (named entries))

mutual

/-- The floating point numbers in data, in the order of writing. -/
def reals : Data → List Double
  | .real value => [value]
  | .array items => itemReals items
  | .object fields => fieldReals fields
  | _ => []

def itemReals : List Data → List Double
  | [] => []
  | item :: rest => reals item ++ itemReals rest

def fieldReals : List (Key × Data) → List Double
  | [] => []
  | (_, value) :: rest => reals value ++ fieldReals rest

end

mutual

theorem mem_reals {number : Double} (data : Data) : number ∈ reals data ↔ Occurs (.real number) data := by
  match data with
  | .null | .bool _ | .int _ | .text _ =>
    refine iff_of_false List.not_mem_nil ?_
    intro within
    cases within
  | .real value =>
    rw [reals, List.mem_singleton]
    constructor
    · rintro rfl
      exact .here
    · rintro ⟨⟩
      rfl
  | .array items =>
    rw [reals, mem_itemReals items]
    constructor
    · rintro ⟨item, listed, within⟩
      exact .item listed within
    · rintro (_ | ⟨listed, within⟩)
      exact ⟨_, listed, within⟩
  | .object fields =>
    rw [reals, mem_fieldReals fields]
    constructor
    · rintro ⟨field, listed, within⟩
      exact .field listed within
    · rintro (_ | _ | ⟨listed, within⟩)
      exact ⟨_, listed, within⟩
termination_by structural data

private theorem mem_itemReals {number : Double} (items : List Data) :
    number ∈ itemReals items ↔ ∃ item ∈ items, Occurs (.real number) item := by
  match items with
  | [] => simp [itemReals]
  | item :: rest => rw [itemReals, List.mem_append, mem_reals item, mem_itemReals rest, List.exists_mem_cons_iff]
termination_by structural items

private theorem mem_fieldReals {number : Double} (fields : List (Key × Data)) :
    number ∈ fieldReals fields ↔ ∃ field ∈ fields, Occurs (.real number) field.2 := by
  match fields with
  | [] => simp [fieldReals]
  | (key, value) :: rest =>
    rw [fieldReals, List.mem_append, mem_reals value, mem_fieldReals rest, List.exists_mem_cons_iff]
termination_by structural fields

end

def firstUnfit (numbers : List Double) : Option Double := numbers.find? (!·.isFinite)

/-- The first of the numbers that is not finite is refused. If there is none, there is a result. -/
def Told {α : Type} (format : Format) (numbers : List Double) (result : Except Failure α) : Prop :=
  match firstUnfit numbers with
  | none => ∃ value, result = .ok value
  | some number => result = .error (.notFinite format number)

section
variable {α β : Type} {format : Format} {numbers others : List Double} {result : Except Failure α}

theorem Told.ok (value : α) : Told format [] (.ok value : Except Failure α) := ⟨value, rfl⟩

theorem Told.real (value : Double) (made : α) :
    Told format [value] (if value.isFinite then .ok made else .error (.notFinite format value) : Except Failure α) := by
  rw [Told, firstUnfit, List.find?_singleton]
  cases value.isFinite with
  | true => exact ⟨made, rfl⟩
  | false => rfl

theorem Told.bind {next : α → Except Failure β} (first : Told format numbers result)
    (second : ∀ value, Told format others (next value)) : Told format (numbers ++ others) (result >>= next) := by
  rw [Told, firstUnfit, List.find?_append]
  rw [Told, firstUnfit] at first
  cases found : numbers.find? (!·.isFinite) with
  | some number =>
    rw [found] at first
    rw [first]
    rfl
  | none =>
    rw [found] at first
    obtain ⟨value, rfl⟩ := first
    exact second value

theorem Told.map (told : Told format numbers result) (make : α → β) :
    Told format numbers (result >>= fun value => .ok (make value)) := by
  rw [← List.append_nil numbers]
  exact told.bind fun value => .ok (make value)

end

private theorem writable_digits {n : Int} (short : (natDigits n.natAbs).length ≤ digitLimit) :
    (Data.int n).isWritable = true :=
  writable_int.mpr ((length_natDigits_le_iff (by decide)).mp short)

section
variable {margin : Json.Margin} {data : Data} {items : List Data} {entries : List (String × Data)}

private theorem writeItems_told (each : ∀ item ∈ items, ∀ depth, Told .json (reals item) (Json.write margin depth item))
    (depth : Nat) : Told .json (itemReals items) (Json.writeItems margin depth items) := by
  induction items with
  | nil => exact .ok []
  | cons item rest ih =>
    obtain ⟨first, others⟩ := List.forall_mem_cons.mp each
    exact (first depth).bind fun _ => (ih others).map _

private theorem writeFields_told
    (each : ∀ entry ∈ entries, ∀ depth, Told .json (reals entry.2) (Json.write margin depth entry.2)) (depth : Nat) :
    Told .json (fieldReals (named entries)) (Json.writeFields margin depth (named entries)) := by
  induction entries with
  | nil => exact .ok []
  | cons entry rest ih =>
    obtain ⟨first, others⟩ := List.forall_mem_cons.mp each
    exact (first depth).bind fun _ => (ih others).map _

theorem write_told (shaped : JsonData data) (depth : Nat) : Told .json (reals data) (Json.write margin depth data) := by
  induction shaped generalizing depth with
  | null => exact .ok _
  | bool value => exact .ok _
  | text value => exact .ok _
  | int short =>
    obtain ⟨text, written⟩ := Option.isSome_iff_exists.mp (writable_digits short)
    rw [Json.write, Json.writeInt, written]
    exact .ok _
  | real value => exact .real value _
  | array each ih => exact (writeItems_told ih (depth + 1)).map _
  | object each ih => exact (writeFields_told ih (depth + 1)).map _

private theorem checkItems_told (each : ∀ item ∈ items, Told .yaml (reals item) (Yaml.checkFinite item)) :
    Told .yaml (itemReals items) (Yaml.checkItems items) := by
  induction items with
  | nil => exact .ok ()
  | cons item rest ih =>
    obtain ⟨first, others⟩ := List.forall_mem_cons.mp each
    exact first.bind fun _ => ih others

private theorem checkFields_told (each : ∀ entry ∈ entries, Told .yaml (reals entry.2) (Yaml.checkFinite entry.2)) :
    Told .yaml (fieldReals (named entries)) (Yaml.checkFields (named entries)) := by
  induction entries with
  | nil => exact .ok ()
  | cons entry rest ih =>
    obtain ⟨first, others⟩ := List.forall_mem_cons.mp each
    exact first.bind fun _ => ih others

theorem checkFinite_told (shaped : JsonData data) : Told .yaml (reals data) (Yaml.checkFinite data) := by
  induction shaped with
  | null | bool | text | int => exact .ok ()
  | real value => exact .real value ()
  | array each ih => exact checkItems_told ih
  | object each ih => exact checkFields_told ih

theorem JsonData.writable (shaped : JsonData data) : data.isWritable = true := by
  induction shaped with
  | null | bool | real | text => rfl
  | int short => exact writable_digits short
  | array each ih => exact writable_array.mpr ih
  | object each ih => exact writable_record.mpr ih

variable {indent : Option Int}

theorem json_told (shaped : JsonData data) (fits : Indentable indent data) :
    Told .json (reals data) (Json.encode (indent.map Indent.width) data) := by
  by_cases textual : ∃ text, data = .text text
  · obtain ⟨text, rfl⟩ := textual
    exact .ok _
  · obtain ⟨margin, chosen, -⟩ := marginOf_width (fits.resolve_left textual)
    rw [encode_untextual _ fun text same => textual ⟨text, same⟩, chosen]
    exact (write_told shaped 0).map String.ofList

/-- A number that is not finite is refused before the indentation is looked at. -/
theorem yaml_refused (shaped : JsonData data) {number : Double} (found : firstUnfit (reals data) = some number)
    (indent : Option Indent) : Yaml.encode indent data = .error (.notFinite .yaml number) := by
  have checked := checkFinite_told shaped
  rw [Told, found] at checked
  rw [Yaml.encode, Yaml.encodeMarked, plain_data, checked]
  rfl

private theorem indentStep_width (indent : Option Int) :
    (∃ step, Yaml.indentStep (indent.map Indent.width) = .ok step) ∨
      Yaml.indentStep (indent.map Indent.width) = .error .overflow := by
  cases indent with
  | none => exact .inl ⟨_, rfl⟩
  | some count =>
    rw [Option.map_some, Yaml.indentStep]
    split
    · exact .inr rfl
    · exact .inl ⟨_, rfl⟩

theorem yaml_written (shaped : JsonData data) (finite : firstUnfit (reals data) = none) (indent : Option Int) :
    (∃ text, Yaml.encode (indent.map Indent.width) data = .ok text) ∨
      Yaml.encode (indent.map Indent.width) data = .error .overflow := by
  have checked := checkFinite_told shaped
  rw [Told, finite] at checked
  obtain ⟨_, checked⟩ := checked
  have apart : (Marked.plain data : Marked Empty).references = [] :=
    List.eq_nil_iff_forall_not_mem.mpr fun mark => nomatch mark
  have writable : data.checkWritable = .ok () := if_pos shaped.writable
  rw [Yaml.encode, Yaml.encodeMarked, plain_data, checked, apart, writable]
  rcases indentStep_width indent with ⟨step, chosen⟩ | wide
  · rw [chosen]
    exact .inl ⟨_, rfl⟩
  · rw [wide]
    exact .inr rfl

end

/-- Failures of the kind that data is refused with: the value of something is none that can be used. -/
def isValueError : Failure → Bool
  | .circular | .notPair | .tooManyDigits | .notNumber | .notFinite .. | .unsupportedFormat | .unknownSuffix
  | .duplicateSchema _ | .unsupportedPredefined _ | .nullInPath | .badLogging | .jsonMalformed | .notUtf8 => true
  | _ => false

def ValueError {α : Type} (result : Except Failure α) : Prop :=
  ∃ failure, result = .error failure ∧ isValueError failure = true

section
variable {α : Type} {data : Data} {indent : Option Int} {format : Format} {numbers : List Double}
  {result : Except Failure α}

private theorem firstUnfit_isSome :
    (firstUnfit numbers).isSome = true ↔ ∃ number ∈ numbers, number.isFinite = false := by
  rw [firstUnfit, List.find?_isSome]
  simp

private theorem valueError_told (told : Told format numbers result) :
    ValueError result ↔ (firstUnfit numbers).isSome = true := by
  rw [Told] at told
  cases found : firstUnfit numbers with
  | some number =>
    rw [found] at told
    exact iff_of_true ⟨_, told, rfl⟩ rfl
  | none =>
    rw [found] at told
    obtain ⟨value, rfl⟩ := told
    refine iff_of_false ?_ Bool.false_ne_true
    rintro ⟨_, ⟨⟩, -⟩

/-- Data is refused for its value by the YAML writer exactly if one of its
floating point numbers is not finite, whatever the indentation is, and by the JSON writer exactly if the YAML writer
refuses it. Both refuse the first such number. Only an indentation that is too wide for the JSON writer is noticed
before that. -/
theorem encode_refuses (shaped : JsonData data) (indent : Option Int) :
    let result (format : Format) := format.encode (indent.map Indent.width) data
    (ValueError (result .yaml) ↔ ∃ number, Occurs (.real number) data ∧ number.isFinite = false) ∧
    (Indentable indent data → (ValueError (result .json) ↔ ValueError (result .yaml))) ∧
    (¬ Indentable indent data → result .json = .error .overflow) ∧
    ∀ number, firstUnfit (reals data) = some number → result .yaml = .error (.notFinite .yaml number) ∧
      (Indentable indent data → result .json = .error (.notFinite .json number)) := by
  have yaml : ValueError (Yaml.encode (indent.map Indent.width) data) ↔ (firstUnfit (reals data)).isSome = true := by
    cases found : firstUnfit (reals data) with
    | some number => exact iff_of_true ⟨_, yaml_refused shaped found _, rfl⟩ rfl
    | none =>
      refine iff_of_false ?_ Bool.false_ne_true
      rintro ⟨failure, refused, kind⟩
      rcases yaml_written shaped found indent with ⟨text, written⟩ | wide
      · rw [written] at refused
        cases refused
      · rw [wide] at refused
        cases refused
        cases kind
  have unfit : (firstUnfit (reals data)).isSome = true ↔
      ∃ number, Occurs (.real number) data ∧ number.isFinite = false := by
    simp only [firstUnfit_isSome, mem_reals]
  refine ⟨yaml.trans unfit, ?_, encode_overflow, ?_⟩
  · intro fits
    exact (valueError_told (json_told shaped fits)).trans yaml.symm
  · intro number found
    refine ⟨yaml_refused shaped found _, fun fits => ?_⟩
    have told := json_told shaped fits
    rwa [Told, found] at told

private def unfitNumbers : List (String × Data) := [("a", .array [.int 1, .real .nan]), ("b", .real (.infinite true))]

/-- Of a NaN in an array and an infinity after it the NaN is refused. -/
theorem encode_refuses_first :
    JsonData (.object (named unfitNumbers)) ∧ Indentable (some 2) (.object (named unfitNumbers)) ∧
    Yaml.encode (some (.width 2)) (.object (named unfitNumbers)) = .error (.notFinite .yaml .nan) ∧
    Json.encode (some (.width 2)) (.object (named unfitNumbers)) = .error (.notFinite .json .nan) := by
  have items : JsonData (.array [.int 1, .real .nan]) :=
    .array (List.forall_mem_cons.mpr ⟨.int (by decide), List.forall_mem_singleton.mpr (.real _)⟩)
  have shaped : JsonData (.object (named unfitNumbers)) :=
    .object (List.forall_mem_cons.mpr ⟨items, List.forall_mem_singleton.mpr (.real _)⟩)
  have fits : Indentable (some 2) (.object (named unfitNumbers)) := .inr (by rintro _ ⟨⟩; decide)
  obtain ⟨-, -, -, first⟩ := encode_refuses shaped (some 2)
  obtain ⟨yaml, json⟩ := first .nan rfl
  exact ⟨shaped, fits, yaml, json fits⟩

private def infinity : Data := .array [.real (.infinite false)]

/-- An infinity in an array with a wider indentation than there can be. -/
theorem encode_refuses_overflow :
    ¬ ∀ (data : Data) (indent : Option Int), JsonData data →
      (ValueError (Json.encode (indent.map Indent.width) data) ↔
        ValueError (Yaml.encode (indent.map Indent.width) data)) := by
  intro same
  have shaped : JsonData infinity := .array (List.forall_mem_singleton.mpr (.real _))
  obtain ⟨_, refused, kind⟩ := (same _ (some (2 ^ 63)) shaped).mpr ⟨_, yaml_refused shaped rfl _, rfl⟩
  have overflow : Json.encode (some (.width (2 ^ 63))) infinity = .error .overflow := by decide
  rw [Option.map_some, overflow] at refused
  cases refused
  cases kind

end

end TypeCatalog.Proofs
