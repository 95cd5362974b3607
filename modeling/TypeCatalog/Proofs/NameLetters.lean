import Mathlib
import TypeCatalog.Name
import TypeCatalog.Proofs.SourceSpellings

/-! The letters of names in the catalogue. What is made from a name of the notation has no capital letters, so it is
never such a name itself. -/

namespace TypeCatalog.Proofs
open Name Text

/-- Characters of the first 128 code points are put in lower case one by one. -/
theorem lower_eq_map {text : List Char} (narrow : ∀ c ∈ text, c.toNat < 128) : lower text = text.map Char.toLower := by
  have from_any (before : List Char) : lowerFrom before text = text.map Char.toLower := by
    induction text generalizing before with
    | nil => rfl
    | cons c rest ih =>
      obtain ⟨first, others⟩ := List.forall_mem_cons.mp narrow
      rw [lowerFrom, ih others, lowerChar, if_pos first, List.map_cons, List.singleton_append]
  exact from_any []

section
variable {accepts : Char → Prop} {text : List Char}

theorem separate_all (hyphen : accepts '-') (all : ∀ c ∈ text, accepts c) (isEnd : Char → List Char → Bool) :
    ∀ c ∈ separate isEnd text, accepts c := by
  induction text with
  | nil => simp [separate]
  | cons c rest ih =>
    obtain ⟨first, others⟩ := List.forall_mem_cons.mp all
    rw [separate]
    split
    · exact List.forall_mem_cons.mpr ⟨first, List.forall_mem_cons.mpr ⟨hyphen, ih others⟩⟩
    · exact List.forall_mem_cons.mpr ⟨first, ih others⟩

theorem unifyBrand_all (brand : ∀ c ∈ "Bacnet".toList, accepts c) (all : ∀ c ∈ text, accepts c) :
    ∀ c ∈ unifyBrand text, accepts c := by
  fun_induction unifyBrand text with
  | case1 rest ih =>
    have others := ih fun c member => all c (by simp [member])
    intro c member
    rcases List.mem_append.mp (show c ∈ "Bacnet".toList ++ unifyBrand rest from member) with first | later
    · exact brand c first
    · exact others c later
  | case2 c rest _ ih =>
    obtain ⟨first, others⟩ := List.forall_mem_cons.mp all
    exact List.forall_mem_cons.mpr ⟨first, ih others⟩
  | case3 => simp

theorem dropLead_all (all : ∀ c ∈ text, accepts c) : ∀ c ∈ replaceLead .drop text, accepts c := by
  intro c member
  apply all c
  simp only [replaceLead, Lead.drop] at member
  split at member
  next => simp_all
  next => simp_all
  next => exact member

end

theorem typeName_narrow {name : List Char} (proper : isTypeName name = true) : ∀ c ∈ name, c.toNat < 128 := by
  intro c member
  rcases typeName_chars proper c member with letter | rfl
  · have point := alphanum_point letter
    omega
  · decide

theorem ofType_small {name : String} (proper : isTypeName name.toList = true) :
    ∀ c ∈ (ofType name).toList, c.isUpper = false := by
  have narrow := typeName_narrow proper
  have words : ∀ c ∈ separate endsAcronym (separate endsBeforeCapital (unifyBrand (replaceLead .drop name.toList))),
      c.toNat < 128 :=
    separate_all (by decide) (separate_all (by decide) (unifyBrand_all (by simp) (dropLead_all narrow)) _) _
  rw [ofType, String.toList_ofList, convert]
  intro c member
  split at member
  · rw [lower_eq_map (separate_all (by decide) words _)] at member
    obtain ⟨letter, -, rfl⟩ := List.mem_map.mp member
    exact Char.isUpper_toLower_eq_false letter
  · rw [lower_eq_map words] at member
    obtain ⟨letter, -, rfl⟩ := List.mem_map.mp member
    exact Char.isUpper_toLower_eq_false letter

/-- No name of the notation is the catalogue's name of one. -/
theorem ofType_ne {name other : String} (proper : isTypeName name.toList = true)
    (another : isTypeName other.toList = true) : ofType name ≠ other := by
  rintro rfl
  have small := ofType_small proper
  cases same : (ofType name).toList with
  | nil => simp [same, isTypeName] at another
  | cons c rest =>
    rw [same] at small another
    have upper : c.isUpper = true := (Bool.and_eq_true_iff.mp another).1
    simp [small c List.mem_cons_self] at upper

end TypeCatalog.Proofs
