import Mathlib.Data.List.Nodup
import Mathlib.Data.List.Perm.Subperm
import TypeCatalog.Proofs.RegistryLookup

/-! What is found in objects: in those that are listed with text keys, after a value has been put under a key, and after
the fields of one object have been put over those of another. -/

namespace TypeCatalog.Proofs

def named (entries : List (String × Data)) : Fields := entries.map fun (name, value) => (.text name, value)

theorem find_named (entries : List (String × Data)) (name : String) :
    (named entries).find? name = entries.lookup name := by
  induction entries with
  | nil => rfl
  | cons entry rest ih =>
    obtain ⟨own, value⟩ := entry
    change ((((.text own : Key), value) :: named rest).find? fun field => field.1.same (.text name)).map (·.2) = _
    rw [List.find?_cons, List.lookup_cons, text_same, BEq.comm]
    cases name == own with
    | true => rfl
    | false => exact ih

theorem lookup_new {entries : List (String × Data)} {name : String} (new : name ∉ entries.map (·.1)) :
    entries.lookup name = none := by
  rw [List.lookup_eq_none_iff]
  intro entry member
  rw [bne_iff_ne]
  intro same
  exact new (same ▸ List.mem_map_of_mem member)

theorem put_named {entries : List (String × Data)} {name : String} (new : name ∉ entries.map (·.1)) (value : Data) :
    Fields.put (.text name) value (named entries) = named (entries ++ [(name, value)]) := by
  induction entries with
  | nil => rfl
  | cons entry rest ih =>
    obtain ⟨own, old⟩ := entry
    rw [List.map_cons, List.mem_cons, not_or] at new
    have apart : (Key.text own).same (.text name) = false := beq_eq_false_iff_ne.mpr (Ne.symm new.1)
    change (if (Key.text own).same (.text name) then _ else (Key.text own, old) :: Fields.put _ _ (named rest)) = _
    rw [apart, ih new.2]
    rfl

theorem same_text {key : Key} {name : String} : key.same (.text name) = true ↔ key = .text name := by
  cases key with
  | text other => rw [text_same, beq_iff_eq, Key.text.injEq]
  | null | bool value | int value => constructor <;> rintro ⟨⟩
  | real value =>
    constructor
    · simp only [Key.same, Key.place?]
      cases value.magnitude? <;> rintro ⟨⟩
    · rintro ⟨⟩

/-- An object whose fields are all known has none under any other name. -/
theorem find_unknown {fields : Fields} {known : List (String × Data)} {name : String} (other : known.lookup name = none)
    (closed : ∀ field ∈ fields, (Fields.get? (named known) field.1).isSome = true) : fields.find? name = none := by
  rw [Fields.find?, Fields.get?, Option.map_eq_none_iff, List.find?_eq_none]
  intro field listed same
  have held := closed field listed
  rw [same_text.mp same, ← Fields.find?, find_named, other] at held
  cases held

theorem found_length {fields : Fields} {names : List String} (apart : names.Nodup)
    (found : ∀ name ∈ names, ∃ value, fields.find? name = some value) : names.length ≤ fields.length := by
  have keys : names.map Key.text ⊆ fields.map (·.1) := by
    intro key member
    obtain ⟨name, listed, rfl⟩ := List.mem_map.mp member
    obtain ⟨value, held⟩ := found name listed
    obtain ⟨field, first, -⟩ := Option.map_eq_some_iff.mp held
    have same := List.find?_some first
    rw [← same_text.mp same]
    exact List.mem_map_of_mem (List.mem_of_find?_eq_some first)
  have different : (names.map Key.text).Nodup := List.Nodup.map (fun _ _ => Key.text.inj) apart
  have bound := (List.subperm_of_subset different keys).length_le
  rwa [List.length_map, List.length_map] at bound

section
variable {base override : Fields} {key : Key}

theorem find_put (fields : Fields) (key other : Key) (value : Data) :
    (Fields.put key value fields).get? other = if key.same other then some value else fields.get? other := by
  induction fields with
  | nil =>
    simp only [Fields.put, Fields.get?, List.find?_cons, List.find?_nil]
    split <;> simp_all
  | cons field rest ih =>
    obtain ⟨held, old⟩ := field
    rw [Fields.put]
    by_cases found : held.same key = true
    · rw [if_pos found]
      simp only [Fields.get?, List.find?_cons, key_same_congr found other]
      split <;> simp_all
    · rw [if_neg found]
      simp only [Fields.get?, List.find?_cons] at ih ⊢
      cases here : held.same other with
      | false => exact ih
      | true =>
        have apart : key.same other = false := by
          rw [Bool.eq_false_iff]
          intro equal
          exact found (key_same_trans here (key_same_symm equal))
        simp [apart]

theorem merge_cons (base : Fields) (field : Key × Data) (rest : Fields) :
    Fields.merge base (field :: rest) = Fields.merge (Fields.put field.1 field.2 base) rest := rfl

/-- What is found after a merge is one of the fields that were put, or else what the base has. -/
theorem merge_found {entry : Data} (found : (Fields.merge base override).get? key = some entry) :
    (∃ field ∈ override, field.2 = entry) ∨ base.get? key = some entry := by
  induction override generalizing base with
  | nil => exact .inr found
  | cons field rest ih =>
    rw [merge_cons] at found
    rcases ih found with ⟨other, member, same⟩ | old
    · exact .inl ⟨other, List.mem_cons_of_mem _ member, same⟩
    · rw [find_put] at old
      split at old
      · exact .inl ⟨field, List.mem_cons_self, Option.some.inj old⟩
      · exact .inr old

theorem merge_keeps (known : (base.get? key).isSome = true) : ((Fields.merge base override).get? key).isSome = true := by
  induction override generalizing base with
  | nil => exact known
  | cons field rest ih =>
    rw [merge_cons]
    apply ih
    rw [find_put]
    split
    · rfl
    · exact known

/-- The fields that are put come before those of the base, if their keys are different from each other. -/
theorem merge_get (apart : override.Pairwise fun first second => first.1.same second.1 = false) :
    (Fields.merge base override).get? key = (override.get? key).or (base.get? key) := by
  induction override generalizing base with
  | nil => rfl
  | cons field rest ih =>
    obtain ⟨own, others⟩ := List.pairwise_cons.mp apart
    have first : Fields.get? (field :: rest) key = if field.1.same key then some field.2 else Fields.get? rest key := by
      rw [Fields.get?, List.find?_cons]
      cases field.1.same key <;> rfl
    rw [merge_cons, ih others, find_put, first]
    by_cases here : field.1.same key = true
    · have missing : Fields.get? rest key = none := by
        rw [Fields.get?, Option.map_eq_none_iff, List.find?_eq_none]
        intro other member again
        have same := key_same_trans here (key_same_symm again)
        rw [own other member] at same
        cases same
      rw [if_pos here, if_pos here, missing]
      rfl
    · rw [if_neg here, if_neg here]

end

end TypeCatalog.Proofs
