import TypeCatalog.Document
import TypeCatalog.Proofs.Attempts
import TypeCatalog.Proofs.MarkedData
import TypeCatalog.Proofs.ObjectFields

/-! Objects that are read have every key once. A value is put under its key or in place of the one that is there, in JSON
text as in YAML text, and neither numbering collections nor replacing references touches the keys. -/

namespace TypeCatalog.Proofs

/-- No two fields have one key. -/
def KeysApart {α : Type} (fields : List (Key × α)) : Prop :=
  fields.Pairwise fun first second => first.1.same second.1 = false

/-- Data whose objects have every key once, however deep they are. -/
inductive Distinct : Data → Prop where
  | null : Distinct .null
  | bool (value : Bool) : Distinct (.bool value)
  | int (value : Int) : Distinct (.int value)
  | real (value : Double) : Distinct (.real value)
  | text (value : String) : Distinct (.text value)
  | array {items : List Data} (each : ∀ item ∈ items, Distinct item) : Distinct (.array items)
  | object {fields : Fields} (apart : KeysApart fields) (each : ∀ field ∈ fields, Distinct field.2) : Distinct (.object fields)

inductive DistinctMarked {μ : Type} : Marked μ → Prop where
  | scalar (value : Key) : DistinctMarked (.scalar value)
  | array (mark : Option μ) {items : List (Marked μ)} (each : ∀ item ∈ items, DistinctMarked item) :
      DistinctMarked (.array mark items)
  | object (mark : Option μ) {fields : List (Key × Marked μ)} (apart : KeysApart fields)
      (each : ∀ field ∈ fields, DistinctMarked field.2) : DistinctMarked (.object mark fields)
  | reference (mark : μ) : DistinctMarked (.reference mark)

section
variable {α : Type} {found : Key → Bool} {key : Key} {value : α} {fields : List (Key × α)}

/-- Puts a value under a key, in place of the first value whose key is found to be there already. -/
def putWith (found : Key → Bool) (key : Key) (value : α) : List (Key × α) → List (Key × α)
  | [] => [(key, value)]
  | (other, old) :: rest => if found other then (other, value) :: rest else (other, old) :: putWith found key value rest

theorem fieldsPut_eq (key : Key) (value : Data) (fields : Fields) :
    Fields.put key value fields = putWith (·.same key) key value fields := by
  induction fields with
  | nil => rfl
  | cons field rest ih => rw [Fields.put, putWith, ih]

theorem putField_eq (key : Key) (value : Marked Nat) (fields : List (Key × Marked Nat)) :
    Yaml.Tree.putField key value fields = putWith (fun other => other == key || other.same key) key value fields := by
  induction fields with
  | nil => rfl
  | cons field rest ih => rw [Yaml.Tree.putField, putWith, ih]

/-- Keys stay apart if a key that is the same as the new one is found. -/
theorem putWith_apart (apart : KeysApart fields) (finds : ∀ other, found other = false → other.same key = false) :
    KeysApart (putWith found key value fields) ∧
      ∀ field ∈ putWith found key value fields, field.1 = key ∨ ∃ old ∈ fields, old.1 = field.1 := by
  induction fields with
  | nil => exact ⟨List.pairwise_singleton _ _, List.forall_mem_singleton.mpr (.inl rfl)⟩
  | cons field rest ih =>
    obtain ⟨own, others⟩ := List.pairwise_cons.mp apart
    obtain ⟨later, known⟩ := ih others
    rw [putWith]
    cases here : found field.1 with
    | true =>
      refine ⟨List.pairwise_cons.mpr ⟨own, others⟩, List.forall_mem_cons.mpr ⟨.inr ⟨_, List.mem_cons_self, rfl⟩, ?_⟩⟩
      exact fun other listed => .inr ⟨other, List.mem_cons_of_mem _ listed, rfl⟩
    | false =>
      refine ⟨List.pairwise_cons.mpr ⟨?_, later⟩, List.forall_mem_cons.mpr ⟨.inr ⟨_, List.mem_cons_self, rfl⟩, ?_⟩⟩
      · intro other listed
        rcases known other listed with same | ⟨old, inside, same⟩
        · rw [same]
          exact finds _ here
        · rw [← same]
          exact own old inside
      · intro other listed
        exact (known other listed).imp_right fun ⟨old, inside, same⟩ => ⟨old, List.mem_cons_of_mem _ inside, same⟩

theorem putWith_each {holds : α → Prop} (each : ∀ field ∈ fields, holds field.2) (own : holds value) :
    ∀ field ∈ putWith found key value fields, holds field.2 := by
  induction fields with
  | nil => exact List.forall_mem_singleton.mpr own
  | cons field rest ih =>
    obtain ⟨first, others⟩ := List.forall_mem_cons.mp each
    rw [putWith]
    split
    · exact List.forall_mem_cons.mpr ⟨own, others⟩
    · exact List.forall_mem_cons.mpr ⟨first, ih others⟩

/-- What is put field by field has every key once, and values that were put. -/
theorem puts_apart {holds : α → Prop} {entries base : List (Key × α)} {put : Key → α → List (Key × α) → List (Key × α)}
    {found : Key → Key → Bool} (puts : ∀ key value fields, put key value fields = putWith (found key) key value fields)
    (finds : ∀ key other, found key other = false → other.same key = false)
    (each : ∀ entry ∈ entries, holds entry.2) (apart : KeysApart base) (own : ∀ field ∈ base, holds field.2) :
    KeysApart (entries.foldl (fun fields (key, value) => put key value fields) base) ∧
      ∀ field ∈ entries.foldl (fun fields (key, value) => put key value fields) base, holds field.2 := by
  induction entries generalizing base with
  | nil => exact ⟨apart, own⟩
  | cons entry rest ih =>
    obtain ⟨key, value⟩ := entry
    obtain ⟨first, others⟩ := List.forall_mem_cons.mp each
    rw [List.foldl_cons]
    dsimp only
    rw [puts]
    exact ih others (putWith_apart apart (finds key)).1 (putWith_each own first)

end

theorem ofList_distinct {entries : List (Key × Data)} (each : ∀ entry ∈ entries, Distinct entry.2) :
    Distinct (.object (Fields.ofList entries)) := by
  obtain ⟨apart, distinct⟩ := puts_apart fieldsPut_eq (fun _ _ => id) each (.nil : KeysApart []) (List.forall_mem_nil _)
  exact .object apart distinct

section
variable {text rest : List Char} {data : Data}

private theorem word_distinct (read : Json.readWord? text = some (data, rest)) : Distinct data := by
  obtain ⟨entry, listed, found⟩ := List.exists_of_findSome?_eq_some read
  obtain ⟨_, -, same⟩ := Option.map_eq_some_iff.mp found
  cases same
  have each : ∀ entry ∈ Json.words, Distinct entry.2 := by
    simp only [Json.words, List.forall_mem_cons]
    exact ⟨.null, .bool true, .bool false, .real .nan, .real _, .real _, List.forall_mem_nil _⟩
  exact each entry listed

private theorem number_distinct (read : Json.readNumber text = .ok (data, rest)) : Distinct data := by
  unfold Json.readNumber at read
  split at read
  dsimp only at read
  split at read
  next => cases read
  next =>
    split at read
    next =>
      split at read
      next =>
        cases read
        exact .int _
      next => cases read
    next =>
      cases read
      exact .real _

structure ReadsDistinct (steps : Nat) : Prop where
  value : ∀ {text rest : List Char} {data : Data}, Json.readValue steps text = .ok (data, rest) → Distinct data
  items : ∀ {text rest : List Char} {list : List Data}, Json.readItems steps text = .ok (list, rest) →
    ∀ item ∈ list, Distinct item
  fields : ∀ {text rest : List Char} {list : List (Key × Data)}, Json.readFields steps text = .ok (list, rest) →
    ∀ field ∈ list, Distinct field.2

section
variable {steps : Nat} (fewer : ReadsDistinct steps)
include fewer

private theorem readValue_distinct (read : Json.readValue (steps + 1) text = .ok (data, rest)) : Distinct data := by
  rw [Json.readValue.eq_def] at read
  dsimp only at read
  split at read
  next =>
    obtain ⟨⟨text, after⟩, -, same⟩ := of_bind_ok read
    cases same
    exact .text text
  next =>
    split at read
    next =>
      cases read
      exact .object .nil (List.forall_mem_nil _)
    next =>
      obtain ⟨⟨entries, after⟩, known, same⟩ := of_bind_ok read
      cases same
      exact ofList_distinct (fewer.fields known)
  next =>
    split at read
    next =>
      cases read
      exact .array (List.forall_mem_nil _)
    next =>
      obtain ⟨⟨list, after⟩, known, same⟩ := of_bind_ok read
      cases same
      exact .array (fewer.items known)
  next =>
    split at read
    next result word =>
      cases read
      exact word_distinct word
    next => exact number_distinct read

private theorem readItems_distinct {list : List Data} (read : Json.readItems (steps + 1) text = .ok (list, rest)) :
    ∀ item ∈ list, Distinct item := by
  rw [Json.readItems] at read
  obtain ⟨⟨item, after⟩, known, read⟩ := of_bind_ok read
  dsimp only at read
  split at read
  next =>
    obtain ⟨⟨others, last⟩, more, same⟩ := of_bind_ok read
    cases same
    exact List.forall_mem_cons.mpr ⟨fewer.value known, fewer.items more⟩
  next =>
    cases read
    exact List.forall_mem_singleton.mpr (fewer.value known)
  next => cases read

private theorem readFields_distinct {list : List (Key × Data)} (read : Json.readFields (steps + 1) text = .ok (list, rest)) :
    ∀ field ∈ list, Distinct field.2 := by
  rw [Json.readFields.eq_def] at read
  dsimp only at read
  split at read
  next =>
    obtain ⟨⟨name, after⟩, -, read⟩ := of_bind_ok read
    dsimp only at read
    split at read
    next =>
      obtain ⟨⟨content, after'⟩, known, read⟩ := of_bind_ok read
      dsimp only at read
      split at read
      next =>
        obtain ⟨⟨others, last⟩, more, same⟩ := of_bind_ok read
        cases same
        exact List.forall_mem_cons.mpr ⟨fewer.value known, fewer.fields more⟩
      next =>
        cases read
        exact List.forall_mem_singleton.mpr (fewer.value known)
      next => cases read
    next => cases read
  next => cases read

end

theorem reads_distinct (steps : Nat) : ReadsDistinct steps := by
  induction steps with
  | zero => exact ⟨nofun, nofun, nofun⟩
  | succ steps ih => exact ⟨readValue_distinct ih, readItems_distinct ih, readFields_distinct ih⟩

theorem json_distinct {text : String} (read : Json.decode text = .ok data) : Distinct data := by
  obtain ⟨⟨value, after⟩, known, read⟩ := of_bind_ok read
  dsimp only at read
  split at read
  next =>
    cases read
    exact (reads_distinct _).value known
  next => cases read

end

theorem Distinct.items {items : List Data} : Distinct (.array items) → ∀ item ∈ items, Distinct item
  | .array each => each

theorem Distinct.fields {fields : Fields} : Distinct (.object fields) → KeysApart fields ∧ ∀ field ∈ fields, Distinct field.2
  | .object apart each => ⟨apart, each⟩

theorem DistinctMarked.items {μ : Type} {mark : Option μ} {items : List (Marked μ)} :
    DistinctMarked (.array mark items) → ∀ item ∈ items, DistinctMarked item
  | .array _ each => each

theorem DistinctMarked.fields {μ : Type} {mark : Option μ} {fields : List (Key × Marked μ)} :
    DistinctMarked (.object mark fields) → KeysApart fields ∧ ∀ field ∈ fields, DistinctMarked field.2
  | .object _ apart each => ⟨apart, each⟩

theorem apart_of_keys {α β : Type} {fields : List (Key × α)} {others : List (Key × β)}
    (same : others.map (·.1) = fields.map (·.1)) (apart : KeysApart fields) : KeysApart others := by
  have keys {γ : Type} (list : List (Key × γ)) :
      KeysApart list ↔ (list.map (·.1)).Pairwise fun first second => first.same second = false := by
    rw [KeysApart, List.pairwise_map]
  rwa [keys, same, ← keys]

section
open Marked

mutual

private theorem numbered_distinct (next : Nat) (data : Data) (distinct : Distinct data) :
    DistinctMarked (number next data).1 := by
  match data with
  | .null => exact .scalar .null
  | .bool value => exact .scalar (.bool value)
  | .int value => exact .scalar (.int value)
  | .real value => exact .scalar (.real value)
  | .text value => exact .scalar (.text value)
  | .array items => exact .array _ (numberList_distinct (next + 1) items distinct.items)
  | .object fields =>
    obtain ⟨apart, each⟩ := distinct.fields
    obtain ⟨keys, others⟩ := numberFields_distinct (next + 1) fields each
    exact .object _ (apart_of_keys keys apart) others
termination_by structural data

private theorem numberList_distinct (next : Nat) (items : List Data) (each : ∀ item ∈ items, Distinct item) :
    ∀ item ∈ (numberList next items).1, DistinctMarked item := by
  match items with
  | [] => exact List.forall_mem_nil _
  | item :: rest =>
    obtain ⟨own, others⟩ := List.forall_mem_cons.mp each
    exact List.forall_mem_cons.mpr ⟨numbered_distinct next item own, numberList_distinct _ rest others⟩
termination_by structural items

private theorem numberFields_distinct (next : Nat) (fields : List (Key × Data)) (each : ∀ field ∈ fields, Distinct field.2) :
    (numberFields next fields).1.map (·.1) = fields.map (·.1) ∧
      ∀ field ∈ (numberFields next fields).1, DistinctMarked field.2 := by
  match fields with
  | [] => exact ⟨rfl, List.forall_mem_nil _⟩
  | (key, value) :: rest =>
    obtain ⟨own, others⟩ := List.forall_mem_cons.mp each
    obtain ⟨keys, later⟩ := numberFields_distinct (number next value).2 rest others
    exact ⟨congrArg (key :: ·) keys, List.forall_mem_cons.mpr ⟨numbered_distinct next value own, later⟩⟩
termination_by structural fields

end

mutual

theorem tree_distinct (tree : Yaml.Tree) {document : Marked Nat} (read : tree.data = .ok document) :
    DistinctMarked document := by
  match tree with
  | .scalar number tag isPlain text =>
    rw [Yaml.Tree.data] at read
    obtain ⟨key, -, same⟩ := of_bind_ok read
    cases same
    exact .scalar key
  | .sequence number tag items =>
    rw [Yaml.Tree.data] at read
    obtain ⟨list, known, same⟩ := of_bind_ok read
    cases same
    exact .array _ (trees_distinct items known)
  | .mapping number tag fields =>
    rw [Yaml.Tree.data] at read
    obtain ⟨list, known, same⟩ := of_bind_ok read
    cases same
    have each := treeFields_distinct fields known
    have finds (key other : Key) (missing : (other == key || other.same key) = false) : other.same key = false :=
      (Bool.or_eq_false_iff.mp missing).2
    obtain ⟨apart, distinct⟩ := puts_apart putField_eq finds each .nil (List.forall_mem_nil _)
    exact .object _ apart distinct
  | .alias number =>
    cases read
    exact .reference number
termination_by structural tree

private theorem trees_distinct (items : List Yaml.Tree) {list : List (Marked Nat)}
    (read : Yaml.Tree.listData items = .ok list) : ∀ item ∈ list, DistinctMarked item := by
  match items with
  | [] =>
    cases read
    exact List.forall_mem_nil _
  | item :: rest =>
    rw [Yaml.Tree.listData] at read
    obtain ⟨first, own, read⟩ := of_bind_ok read
    obtain ⟨others, later, same⟩ := of_bind_ok read
    cases same
    exact List.forall_mem_cons.mpr ⟨tree_distinct item own, trees_distinct rest later⟩
termination_by structural items

private theorem treeFields_distinct (fields : List (Yaml.Tree × Yaml.Tree)) {list : List (Key × Marked Nat)}
    (read : Yaml.Tree.fieldsData fields = .ok list) : ∀ field ∈ list, DistinctMarked field.2 := by
  match fields with
  | [] =>
    cases read
    exact List.forall_mem_nil _
  | (key, value) :: rest =>
    unfold Yaml.Tree.fieldsData at read
    split at read
    next =>
      obtain ⟨name, -, read⟩ := of_bind_ok read
      obtain ⟨first, own, read⟩ := of_bind_ok read
      obtain ⟨others, later, same⟩ := of_bind_ok read
      cases same
      exact List.forall_mem_cons.mpr ⟨tree_distinct value own, treeFields_distinct rest later⟩
    next => cases read
termination_by structural fields

end

theorem decodeMarked_distinct {format : Format} {text : String} {document : Marked Nat}
    (read : format.decodeMarked text = .ok document) : DistinctMarked document := by
  cases format with
  | json =>
    obtain ⟨data, known, same⟩ := of_bind_ok read
    cases same
    exact numbered_distinct 0 data (json_distinct known)
  | yaml =>
    change Yaml.decodeMarked text = _ at read
    rw [Yaml.decodeMarked] at read
    split at read
    next => cases read
    next =>
      cases read
      exact .scalar .null
    next =>
      split at read
      next => cases read
      next => exact tree_distinct _ read

section
variable {μ : Type} [BEq μ]

mutual

theorem dataWith_distinct {known : List (μ × Data)} (each : ∀ entry ∈ known, Distinct entry.2) (document : Marked μ)
    (distinct : DistinctMarked document) : Distinct (document.dataWith known) := by
  match document with
  | .scalar value => cases value <;> constructor
  | .array mark items => exact .array (listDataWith_distinct each items distinct.items)
  | .object mark fields =>
    obtain ⟨apart, own⟩ := distinct.fields
    refine .object (apart_of_keys ?_ apart) (fieldDataWith_distinct each fields own)
    rw [fieldDataWith_eq, List.map_map]
    rfl
  | .reference mark =>
    rw [dataWith]
    cases found : known.lookup mark with
    | none => exact .null
    | some data =>
      obtain ⟨entry, listed, rfl⟩ := lookup_listed found
      exact each entry listed
termination_by structural document

private theorem listDataWith_distinct {known : List (μ × Data)} (each : ∀ entry ∈ known, Distinct entry.2)
    (items : List (Marked μ)) (distinct : ∀ item ∈ items, DistinctMarked item) :
    ∀ item ∈ listDataWith known items, Distinct item := by
  match items with
  | [] => exact List.forall_mem_nil _
  | item :: rest =>
    obtain ⟨own, others⟩ := List.forall_mem_cons.mp distinct
    exact List.forall_mem_cons.mpr ⟨dataWith_distinct each item own, listDataWith_distinct each rest others⟩
termination_by structural items

private theorem fieldDataWith_distinct {known : List (μ × Data)} (each : ∀ entry ∈ known, Distinct entry.2)
    (fields : List (Key × Marked μ)) (distinct : ∀ field ∈ fields, DistinctMarked field.2) :
    ∀ field ∈ fieldDataWith known fields, Distinct field.2 := by
  match fields with
  | [] => exact List.forall_mem_nil _
  | (key, value) :: rest =>
    obtain ⟨own, others⟩ := List.forall_mem_cons.mp distinct
    exact List.forall_mem_cons.mpr ⟨dataWith_distinct each value own, fieldDataWith_distinct each rest others⟩
termination_by structural fields

end

end

section
variable {μ : Type}

mutual

theorem collections_distinct (document : Marked μ) (distinct : DistinctMarked document) :
    ∀ entry ∈ document.collections, DistinctMarked entry.2 := by
  match document with
  | .scalar _ | .reference _ => exact List.forall_mem_nil _
  | .array mark items =>
    rw [collections, List.forall_mem_append, List.forall_mem_map]
    exact ⟨fun _ _ => distinct, listCollections_distinct items distinct.items⟩
  | .object mark fields =>
    rw [collections, List.forall_mem_append, List.forall_mem_map]
    exact ⟨fun _ _ => distinct, fieldCollections_distinct fields distinct.fields.2⟩
termination_by structural document

private theorem listCollections_distinct (items : List (Marked μ)) (distinct : ∀ item ∈ items, DistinctMarked item) :
    ∀ entry ∈ listCollections items, DistinctMarked entry.2 := by
  match items with
  | [] => exact List.forall_mem_nil _
  | item :: rest =>
    obtain ⟨own, others⟩ := List.forall_mem_cons.mp distinct
    exact List.forall_mem_append.mpr ⟨collections_distinct item own, listCollections_distinct rest others⟩
termination_by structural items

private theorem fieldCollections_distinct (fields : List (Key × Marked μ))
    (distinct : ∀ field ∈ fields, DistinctMarked field.2) :
    ∀ entry ∈ fieldCollections fields, DistinctMarked entry.2 := by
  match fields with
  | [] => exact List.forall_mem_nil _
  | (key, value) :: rest =>
    obtain ⟨own, others⟩ := List.forall_mem_cons.mp distinct
    exact List.forall_mem_append.mpr ⟨collections_distinct value own, fieldCollections_distinct rest others⟩
termination_by structural fields

end

variable [BEq μ]

theorem view_distinct {document : Marked μ} (distinct : DistinctMarked document) : Distinct document.view := by
  have settled (rounds : Nat) : ∀ entry ∈ after document.targets dataWith rounds, Distinct entry.2 := by
    induction rounds with
    | zero => exact List.forall_mem_nil _
    | succ rounds ih =>
      rw [after_succ, List.forall_mem_map]
      intro target listed
      exact dataWith_distinct ih _ (collections_distinct document distinct target (List.mem_of_mem_filter listed))
  exact dataWith_distinct (settled _) document distinct

end

end

end TypeCatalog.Proofs
