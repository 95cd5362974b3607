import Mathlib.Logic.Function.Basic

/-! Looking up in lists of pairs: after a value was placed under a key, after all values were changed, and after all keys
were. -/

namespace TypeCatalog.Proofs

/-- A value that is placed under a key, at the end or where the key stands first, is found under it, and all other keys
keep their values. -/
theorem lookup_placed {κ α : Type} [BEq κ] [LawfulBEq κ] {key : κ} {value : α} (place : List (κ × α) → List (κ × α))
    (last : place [] = [(key, value)])
    (here : ∀ other old rest, place ((other, old) :: rest) =
      if other == key then (other, value) :: rest else (other, old) :: place rest)
    (entries : List (κ × α)) (sought : κ) :
    (place entries).lookup sought = if sought == key then some value else entries.lookup sought := by
  induction entries with
  | nil =>
    rw [last, List.lookup_cons]
    cases sought == key <;> rfl
  | cons entry rest ih =>
    obtain ⟨other, old⟩ := entry
    rw [here]
    split
    next same =>
      rw [beq_iff_eq] at same
      rw [List.lookup_cons, List.lookup_cons, same]
      cases sought == key <;> rfl
    next apart =>
      rw [List.lookup_cons, List.lookup_cons, ih]
      cases found : sought == other with
      | false => rfl
      | true =>
        rw [beq_iff_eq] at found
        change some old = if _ then _ else some old
        rw [found, if_neg apart]

section
variable {κ α : Type} [BEq κ]

theorem lookup_map {β : Type} (image : α → β) (key : κ) (entries : List (κ × α)) :
    (entries.map fun (key, value) => (key, image value)).lookup key = (entries.lookup key).map image := by
  induction entries with
  | nil => rfl
  | cons entry rest ih =>
    rw [List.map_cons, List.lookup_cons, List.lookup_cons]
    cases key == entry.1 with
    | true => rfl
    | false => exact ih

theorem lookup_listed {entries : List (κ × α)} {key : κ} {value : α} (found : entries.lookup key = some value) :
    ∃ entry ∈ entries, entry.2 = value := by
  induction entries with
  | nil => cases found
  | cons entry rest ih =>
    rw [List.lookup_cons] at found
    cases same : key == entry.1 with
    | true =>
      rw [same] at found
      exact ⟨entry, List.mem_cons_self, Option.some.inj found⟩
    | false =>
      rw [same] at found
      obtain ⟨other, listed, own⟩ := ih found
      exact ⟨other, List.mem_cons_of_mem _ listed, own⟩

end

theorem lookup_renamed {κ ν α : Type} [BEq κ] [LawfulBEq κ] [BEq ν] [LawfulBEq ν] {change : κ → ν}
    (apart : change.Injective) (entries : List (κ × α)) (key : κ) :
    (entries.map fun entry => (change entry.1, entry.2)).lookup (change key) = entries.lookup key := by
  induction entries with
  | nil => rfl
  | cons entry rest ih =>
    have same : (change key == change entry.1) = (key == entry.1) := by
      rw [Bool.eq_iff_iff, beq_iff_eq, beq_iff_eq, apart.eq_iff]
    rw [List.map_cons, List.lookup_cons, List.lookup_cons, same]
    cases key == entry.1 with
    | true => rfl
    | false => exact ih

end TypeCatalog.Proofs
