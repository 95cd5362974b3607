import Mathlib.Data.List.Basic
import TypeCatalog.Data.Reference
import TypeCatalog.Proofs.Lookups

/-! Marked data as plain data. The marks do not matter for it, nor does whether references are replaced before or while
the data is taken. -/

namespace TypeCatalog.Proofs
open Marked

section
variable {μ : Type} [BEq μ]

mutual

theorem plain_dataWith (known : List (μ × Data)) (data : Data) : (Marked.plain data).dataWith known = data := by
  match data with
  | .null | .bool _ | .int _ | .real _ | .text _ => rfl
  | .array items => rw [plain, dataWith, plainList_dataWith known items]
  | .object fields => rw [plain, dataWith, plainFields_dataWith known fields]
termination_by structural data

private theorem plainList_dataWith (known : List (μ × Data)) (items : List Data) :
    listDataWith known (plainList items) = items := by
  match items with
  | [] => rfl
  | item :: rest => rw [plainList, listDataWith, plain_dataWith known item, plainList_dataWith known rest]
termination_by structural items

private theorem plainFields_dataWith (known : List (μ × Data)) (fields : List (Key × Data)) :
    fieldDataWith known (plainFields fields) = fields := by
  match fields with
  | [] => rfl
  | (key, value) :: rest => rw [plainFields, fieldDataWith, plain_dataWith known value, plainFields_dataWith known rest]
termination_by structural fields

end

theorem plain_data (data : Data) : (Marked.plain data : Marked μ).data = data := plain_dataWith [] data

theorem listDataWith_eq (known : List (μ × Data)) (items : List (Marked μ)) :
    listDataWith known items = items.map (dataWith known) := by
  induction items with
  | nil => rfl
  | cons item rest ih => rw [listDataWith, ih, List.map_cons]

theorem fieldDataWith_eq (known : List (μ × Data)) (fields : List (Key × Marked μ)) :
    fieldDataWith known fields = fields.map fun field => (field.1, dataWith known field.2) := by
  induction fields with
  | nil => rfl
  | cons field rest ih => rw [fieldDataWith, ih, List.map_cons]

mutual

/-- The data after references were replaced has the data of what they were replaced by. -/
theorem replace_data (known : List (μ × Marked μ)) (document : Marked μ) :
    (document.replace known).data = document.dataWith (known.map fun (mark, target) => (mark, target.data)) := by
  match document with
  | .scalar value => rfl
  | .array mark items =>
    rw [replace, dataWith, ← replaceList_data known items]
    rfl
  | .object mark fields =>
    rw [replace, dataWith, ← replaceFields_data known fields]
    rfl
  | .reference mark =>
    rw [replace, dataWith, lookup_map]
    cases known.lookup mark <;> rfl
termination_by structural document

private theorem replaceList_data (known : List (μ × Marked μ)) (items : List (Marked μ)) :
    listDataWith [] (replaceList known items) = listDataWith (known.map fun (mark, target) => (mark, target.data)) items := by
  match items with
  | [] => rfl
  | item :: rest => rw [replaceList, listDataWith, listDataWith, replaceList_data known rest, ← replace_data known item, data]
termination_by structural items

private theorem replaceFields_data (known : List (μ × Marked μ)) (fields : List (Key × Marked μ)) :
    fieldDataWith [] (replaceFields known fields) =
      fieldDataWith (known.map fun (mark, target) => (mark, target.data)) fields := by
  match fields with
  | [] => rfl
  | (key, value) :: rest =>
    rw [replaceFields, fieldDataWith, fieldDataWith, replaceFields_data known rest, ← replace_data known value, data]
termination_by structural fields

end

omit [BEq μ] in
theorem after_succ {α : Type} (targets : List (μ × Marked μ)) (replaced : List (μ × α) → Marked μ → α) (rounds : Nat) :
    after targets replaced (rounds + 1) =
      targets.map fun (mark, target) => (mark, replaced (after targets replaced rounds) target) := rfl

theorem after_data (targets : List (μ × Marked μ)) (rounds : Nat) :
    (after targets replace rounds).map (fun (mark, target) => (mark, target.data)) = after targets dataWith rounds := by
  induction rounds with
  | zero => rfl
  | succ rounds ih =>
    rw [after_succ, after_succ, List.map_map, ← ih]
    exact List.map_congr_left fun entry _ => by simp only [Function.comp_apply, replace_data]

theorem expanded_data (document : Marked μ) : document.expanded.data = document.view := by
  rw [expanded, replace_data, after_data]
  rfl

theorem find_data (document : Marked μ) (name : String) : document.data.find? name = (document.find? name).map (·.data) := by
  cases document with
  | scalar value => cases value <;> rfl
  | array mark items => rfl
  | reference mark => rfl
  | object mark fields =>
    change Fields.find? (fieldDataWith [] fields) name = _
    rw [fieldDataWith_eq, Fields.find?, Fields.get?, Marked.find?, List.find?_map, Option.map_map, Option.map_map]
    rfl

theorem copy_data (document : Marked μ) : document.copy.data = document.data := by
  cases document <;> rfl

end

section
variable {μ ν : Type} {change : μ → ν}

mutual

theorem map_references (document : Marked μ) : (document.map change).references = document.references.map change := by
  match document with
  | .scalar value => rfl
  | .array mark items => rw [Marked.map, references, references, mapList_references items]
  | .object mark fields => rw [Marked.map, references, references, mapFields_references fields]
  | .reference mark => rfl
termination_by structural document

private theorem mapList_references (items : List (Marked μ)) :
    listReferences (mapList change items) = (listReferences items).map change := by
  match items with
  | [] => rfl
  | item :: rest =>
    rw [mapList, listReferences, listReferences, map_references item, mapList_references rest, List.map_append]
termination_by structural items

private theorem mapFields_references (fields : List (Key × Marked μ)) :
    fieldReferences (mapFields change fields) = (fieldReferences fields).map change := by
  match fields with
  | [] => rfl
  | (key, value) :: rest =>
    rw [mapFields, fieldReferences, fieldReferences, map_references value, mapFields_references rest, List.map_append]
termination_by structural fields

end

def recast (change : μ → ν) (entry : μ × Marked μ) : ν × Marked ν := (change entry.1, entry.2.map change)

mutual

theorem map_collections (document : Marked μ) :
    (document.map change).collections = document.collections.map (recast change) := by
  match document with
  | .scalar value => rfl
  | .array mark items =>
    rw [Marked.map, collections, collections, mapList_collections items, List.map_append]
    cases mark <;> rfl
  | .object mark fields =>
    rw [Marked.map, collections, collections, mapFields_collections fields, List.map_append]
    cases mark <;> rfl
  | .reference mark => rfl
termination_by structural document

private theorem mapList_collections (items : List (Marked μ)) :
    listCollections (mapList change items) = (listCollections items).map (recast change) := by
  match items with
  | [] => rfl
  | item :: rest =>
    rw [mapList, listCollections, listCollections, map_collections item, mapList_collections rest, List.map_append]
termination_by structural items

private theorem mapFields_collections (fields : List (Key × Marked μ)) :
    fieldCollections (mapFields change fields) = (fieldCollections fields).map (recast change) := by
  match fields with
  | [] => rfl
  | (key, value) :: rest =>
    rw [mapFields, fieldCollections, fieldCollections, map_collections value, mapFields_collections rest, List.map_append]
termination_by structural fields

end

end

section
variable {μ ν : Type} [BEq μ] [BEq ν] {change : μ → ν}

mutual

/-- Changed marks do not matter if what is known is known under them. -/
theorem map_dataWith {known : List (μ × Data)} {known' : List (ν × Data)}
    (looked : ∀ mark, known'.lookup (change mark) = known.lookup mark) (document : Marked μ) :
    (document.map change).dataWith known' = document.dataWith known := by
  match document with
  | .scalar value => rfl
  | .array mark items => rw [Marked.map, dataWith, dataWith, mapList_dataWith looked items]
  | .object mark fields => rw [Marked.map, dataWith, dataWith, mapFields_dataWith looked fields]
  | .reference mark => rw [Marked.map, dataWith, dataWith, looked]
termination_by structural document

private theorem mapList_dataWith {known : List (μ × Data)} {known' : List (ν × Data)}
    (looked : ∀ mark, known'.lookup (change mark) = known.lookup mark) (items : List (Marked μ)) :
    listDataWith known' (mapList change items) = listDataWith known items := by
  match items with
  | [] => rfl
  | item :: rest => rw [mapList, listDataWith, listDataWith, map_dataWith looked item, mapList_dataWith looked rest]
termination_by structural items

private theorem mapFields_dataWith {known : List (μ × Data)} {known' : List (ν × Data)}
    (looked : ∀ mark, known'.lookup (change mark) = known.lookup mark) (fields : List (Key × Marked μ)) :
    fieldDataWith known' (mapFields change fields) = fieldDataWith known fields := by
  match fields with
  | [] => rfl
  | (key, value) :: rest =>
    rw [mapFields, fieldDataWith, fieldDataWith, map_dataWith looked value, mapFields_dataWith looked rest]
termination_by structural fields

end

variable [LawfulBEq μ] [LawfulBEq ν]

theorem map_targets (apart : change.Injective) (document : Marked μ) :
    (document.map change).targets = document.targets.map (recast change) := by
  rw [targets, targets, map_collections, map_references, List.filter_map]
  congr 1
  apply List.filter_congr
  intro entry _
  rw [Bool.eq_iff_iff, Function.comp_apply, List.contains_iff_mem, List.contains_iff_mem, List.mem_eraseDups,
    List.mem_eraseDups]
  exact List.mem_map_of_injective apart

theorem map_after (apart : change.Injective) (targets : List (μ × Marked μ)) (rounds : Nat) :
    after (targets.map (recast change)) dataWith rounds =
      (after targets dataWith rounds).map fun entry => (change entry.1, entry.2) := by
  induction rounds with
  | zero => rfl
  | succ rounds ih =>
    rw [after_succ, after_succ, ih, List.map_map, List.map_map]
    apply List.map_congr_left
    intro entry _
    simp only [Function.comp_apply, recast, map_dataWith (lookup_renamed apart _)]

theorem map_view (apart : change.Injective) (document : Marked μ) : (document.map change).view = document.view := by
  rw [view, view, unfold, unfold, viewRounds, viewRounds, map_targets apart, List.length_map, map_after apart,
    map_dataWith (lookup_renamed apart _)]

end

end TypeCatalog.Proofs
