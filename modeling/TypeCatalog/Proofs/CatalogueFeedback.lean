import TypeCatalog.Proofs.NameLetters
import TypeCatalog.Proofs.RegistryPrecedence
import TypeCatalog.Proofs.SourceVerdicts

/-! Records fed back. If the records of definitions are put into the registry that they were made with, the definitions
have the same records again: what the registry had still comes first, and what was made is now found by its alias. No
record that was made gets in the way of another definition, because its keys are those of its own definition. -/

namespace TypeCatalog.Proofs
open Registry TypeCatalog.Normal Source

/-- A definition that some text is read as. -/
def Parsed (definition : Definition) : Prop :=
  ∃ text definitions, parse text = .ok definitions ∧ definition ∈ definitions

theorem Spelled.proper {definitions : List Definition} {placed : List Placed} (spelled : Spelled definitions placed) :
    ∀ definition ∈ definitions, isTypeName definition.name.toList = true := by
  induction spelled with
  | nil => simp
  | cons first _ ih =>
    refine List.forall_mem_cons.mpr ⟨?_, ih⟩
    cases first with
    | mk comment proper => rwa [String.toList_ofList]

theorem Parsed.proper {definition : Definition} (parsed : Parsed definition) :
    isTypeName definition.name.toList = true := by
  obtain ⟨text, definitions, accepted, member⟩ := parsed
  obtain ⟨placed, spelled, -⟩ := accepted_laid accepted
  exact spelled.proper definition member

section
variable {index : Index} {key : Key} {records results : List Data}

theorem lastWith_of_mem (apart : records.Pairwise fun first second => ¬ Share index first second) {record : Data}
    (member : record ∈ records) (bearing : bears index key record = true) : lastWith index key records = some record := by
  induction records with
  | nil => cases member
  | cons first rest ih =>
    obtain ⟨own, others⟩ := List.pairwise_cons.mp apart
    rw [lastWith_cons]
    rcases List.mem_cons.mp member with rfl | later
    · have missing : lastWith index key rest = none := by
        rw [lastWith_none]
        intro other listed
        rw [Bool.eq_false_iff]
        intro again
        obtain ⟨held, known, found⟩ := bears_listed bearing
        obtain ⟨held', known', found'⟩ := bears_listed again
        exact own other listed ⟨held, held', known, known', key_same_trans found (key_same_symm found')⟩
      rw [missing, bearing]
      rfl
    · rw [ih others later]
      rfl

/-- Records that are there already do not change what is last with a key, if only one record has it. -/
theorem lastWith_known (apart : records.Pairwise fun first second => ¬ Share index first second)
    (known : ∀ record ∈ results, bears index key record = true → record ∈ records) :
    lastWith index key (records ++ results) = lastWith index key records := by
  rw [lastWith_append]
  cases last : lastWith index key results with
  | none => rfl
  | some record =>
    obtain ⟨member, bearing⟩ := lastWith_some last
    rw [lastWith_of_mem apart (known record member bearing) bearing]
    rfl

end

/-- A record that was made for a definition for which there was none. -/
structure Fresh (records : List Data) (tables : WellKnown) (definition : Definition) (record : Data) : Prop where
  absent : precedence records definition.name = none
  made : ∃ result, normalize none tables definition.draft = .ok result ∧ result.data = record

section
variable {tables : WellKnown} {records results : List Data} {definitions : List Definition} {definition : Definition}
  {record : Data}

theorem Fresh.bears_iff (fresh : Fresh records tables definition record) (index : Index) (name : String) :
    bears index (.text name) record = true ↔
      (match index with
        | .byAlias => definition.name
        | .byName => Name.ofType definition.name) = name := by
  obtain ⟨result, normalized, rfl⟩ := fresh.made
  obtain ⟨first, second⟩ := made_keys normalized
  cases index with
  | byAlias => rw [bears_of_key first, text_same, beq_iff_eq]
  | byName => rw [bears_of_key second, text_same, beq_iff_eq]

theorem Fresh.listable (fresh : Fresh records tables definition record) : Listable record := by
  obtain ⟨result, normalized, rfl⟩ := fresh.made
  obtain ⟨first, second⟩ := made_keys normalized
  intro index
  cases index with
  | byAlias => exact ⟨_, first⟩
  | byName => exact ⟨_, second⟩

theorem Fresh.unique (fresh : Fresh records tables definition record) {other : Data}
    (again : Fresh records tables definition other) : other = record := by
  obtain ⟨result, normalized, rfl⟩ := fresh.made
  obtain ⟨result', normalized', rfl⟩ := again.made
  rw [normalized] at normalized'
  cases normalized'
  rfl

def Sourced (records : List Data) (tables : WellKnown) (definitions : List Definition) (results : List Data) : Prop :=
  ∀ record ∈ results, record ∈ records ∨ ∃ definition ∈ definitions, Fresh records tables definition record

/-- A definition with a record keeps it. -/
theorem precedence_kept (proper : ∀ definition ∈ definitions, isTypeName definition.name.toList = true)
    (apart : ∀ index, records.Pairwise fun first second => ¬ Share index first second)
    (sourced : Sourced records tables definitions results) (member : definition ∈ definitions)
    (found : precedence records definition.name = some record) :
    precedence (records ++ results) definition.name = some record := by
  have own := proper definition member
  have known (index : Index) (name : String)
      (others : ∀ other ∈ definitions, precedence records other.name = none → (match index with
        | .byAlias => other.name
        | .byName => Name.ofType other.name) ≠ name) :
      lastWith index (.text name) (records ++ results) = lastWith index (.text name) records := by
    apply lastWith_known (apart index)
    intro result listed bearing
    rcases sourced result listed with old | ⟨other, inside, fresh⟩
    · exact old
    · exact absurd ((fresh.bears_iff index name).mp bearing) (others other inside fresh.absent)
  have aliasKept := known .byAlias definition.name (by
    intro other _ absent same
    change other.name = definition.name at same
    rw [same, found] at absent
    cases absent)
  have nameKept := known .byName definition.name fun other inside _ => ofType_ne (proper other inside) own
  have smallAliasKept := known .byAlias (Name.ofType definition.name) fun other inside _ =>
    (ofType_ne own (proper other inside)).symm
  rw [← found, precedence, precedence, aliasKept, nameKept, smallAliasKept]
  by_cases last : lastWith .byName (.text (Name.ofType definition.name)) records = none
  · simp only [precedence, last, Option.or_none] at found
    simp only [← Option.or_assoc] at found ⊢
    rw [found]
    rfl
  · have smallNameKept := known .byName (Name.ofType definition.name) (by
      intro other _ absent same
      change Name.ofType other.name = Name.ofType definition.name at same
      simp only [precedence, Option.or_eq_none_iff, same] at absent
      exact last absent.2.2.2)
    rw [smallNameKept]

/-- A definition without a record finds the one that was made for it. -/
theorem precedence_fed (names : (definitions.map (·.name)).Nodup) (sourced : Sourced records tables definitions results)
    (member : definition ∈ definitions) (fresh : Fresh records tables definition record) (fed : record ∈ results) :
    precedence (records ++ results) definition.name = some record := by
  have bearing : bears .byAlias (.text definition.name) record = true := (fresh.bears_iff .byAlias _).mpr rfl
  have last : lastWith .byAlias (.text definition.name) results = some record := by
    cases found : lastWith .byAlias (.text definition.name) results with
    | none => simp [lastWith_none.mp found record fed] at bearing
    | some other =>
      obtain ⟨listed, also⟩ := lastWith_some found
      rcases sourced other listed with old | ⟨origin, inside, again⟩
      · have absent := fresh.absent
        simp only [precedence, Option.or_eq_none_iff] at absent
        simp [lastWith_none.mp absent.1 other old] at also
      · have same : origin = definition :=
          List.inj_on_of_nodup_map names inside member ((again.bears_iff .byAlias _).mp also)
        subst same
        rw [fresh.unique again]
  rw [precedence, lastWith_append, last]
  rfl

end

section
variable {α β γ : Type}

private theorem partner_left {related : α → β → Prop} {as : List α} {bs : List β} (each : List.Forall₂ related as bs)
    {b : β} (member : b ∈ bs) : ∃ a ∈ as, related a b := by
  induction each with
  | nil => cases member
  | cons first _ ih =>
    rcases List.mem_cons.mp member with rfl | later
    · exact ⟨_, List.mem_cons_self, first⟩
    · obtain ⟨a, inside, other⟩ := ih later
      exact ⟨a, List.mem_cons_of_mem _ inside, other⟩

private theorem partners_chosen {related : α → β → Prop} {image : β → γ} {as : List α} {cs : List γ}
    (each : List.Forall₂ (fun a c => ∃ b, related a b ∧ image b = c) as cs) :
    ∃ bs, List.Forall₂ related as bs ∧ bs.map image = cs := by
  induction each with
  | nil => exact ⟨[], .nil, rfl⟩
  | cons first _ ih =>
    obtain ⟨b, own, rfl⟩ := first
    obtain ⟨bs, others, rfl⟩ := ih
    exact ⟨b :: bs, .cons own others, rfl⟩

end

section
variable {tables : WellKnown} {records : List Data} {registry : Registry} {definitions : List Definition}
  {results : List Normalized}

private theorem result_origin (built : ofRecords records = .ok registry) {definition : Definition} {result : Normalized}
    (normalized : normalize (some registry) tables definition.draft = .ok result) :
    precedence records definition.name = some result.data ∨ Fresh records tables definition result.data := by
  cases found : precedence records definition.name with
  | none =>
    rw [normalize_absent built found] at normalized
    exact .inr ⟨found, result, normalized, rfl⟩
  | some record =>
    obtain ⟨other, again, rfl⟩ := normalize_found built found tables
    rw [normalized] at again
    cases again
    exact .inl rfl

private theorem precedence_mem {name : String} {record : Data} (found : precedence records name = some record) :
    record ∈ records := by
  simp only [precedence, Option.or_eq_some_iff] at found
  rcases found with first | ⟨-, second | ⟨-, third | ⟨-, fourth⟩⟩⟩
  · exact (lastWith_some first).1
  · exact (lastWith_some second).1
  · exact (lastWith_some third).1
  · exact (lastWith_some fourth).1

private theorem results_sourced (built : ofRecords records = .ok registry)
    (each : List.Forall₂ (fun (definition : Definition) result =>
      normalize (some registry) tables definition.draft = .ok result) definitions results) :
    Sourced records tables definitions (results.map (·.data)) := by
  intro record member
  obtain ⟨result, listed, rfl⟩ := List.mem_map.mp member
  obtain ⟨definition, inside, normalized⟩ := partner_left each listed
  rcases result_origin built normalized with found | fresh
  · exact .inl (precedence_mem found)
  · exact .inr ⟨definition, inside, fresh⟩

/-- The results of definitions that are distinct by name do not change if they are put into the registry that they were
made with, whose records are distinct by alias and by name. -/
theorem normalizeAll_feedback (parsed : ∀ definition ∈ definitions, Parsed definition)
    (names : (definitions.map (·.name)).Nodup)
    (apart : ∀ index, records.Pairwise fun first second => ¬ Share index first second)
    (built : ofRecords records = .ok registry)
    (normalized : normalizeAll (some registry) tables (definitions.map (·.draft)) = (results, none)) :
    ∃ extended again, ofRecords (records ++ results.map (·.data)) = .ok extended ∧
      normalizeAll (some extended) tables (definitions.map (·.draft)) = (again, none) ∧
      again.map (·.data) = results.map (·.data) := by
  have proper : ∀ definition ∈ definitions, isTypeName definition.name.toList = true :=
    fun definition member => (parsed definition member).proper
  have each := List.forall₂_map_left_iff.mp (normalizeAll_ok_iff.mp normalized)
  have sourced := results_sourced built each
  have listable : ∀ record ∈ records ++ results.map (·.data), Listable record := by
    have old := ofRecords_ok_iff.mp ⟨registry, built⟩
    intro record member
    rcases List.mem_append.mp member with known | new
    · exact old record known
    · rcases sourced record new with known | ⟨definition, -, fresh⟩
      · exact old record known
      · exact fresh.listable
  obtain ⟨extended, rebuilt⟩ := ofRecords_ok_iff.mpr listable
  have again : List.Forall₂ (fun (definition : Definition) data =>
      ∃ result, normalize (some extended) tables definition.draft = .ok result ∧ result.data = data)
      definitions (results.map (·.data)) := by
    rw [List.forall₂_map_right_iff, List.forall₂_iff_zip]
    refine ⟨each.length_eq, ?_⟩
    intro definition result pair
    obtain ⟨member, listed⟩ := List.of_mem_zip pair
    apply normalize_found rebuilt
    rcases result_origin built (List.forall₂_zip each pair) with found | fresh
    · exact precedence_kept proper apart sourced member found
    · exact precedence_fed names sourced member fresh (List.mem_map_of_mem listed)
  obtain ⟨found, own, same⟩ := partners_chosen again
  refine ⟨extended, found, rebuilt, ?_, same⟩
  exact normalizeAll_ok_iff.mpr (List.forall₂_map_left_iff.mpr own)

end

private def zone : Data := .record [("alias", .text "Zone"), ("name", .text "foo")]

private def level (alias' : String) (base : String) : Data :=
  .record [("alias", .text alias'), ("name", .text "level"), ("type", .text base)]

/-- One result is found in the registry by another name than its alias, the other two have one name between them. -/
theorem normalizeAll_feedback_levels :
    ∃ definitions registry extended results again,
      parse "Foo ::= Real BACnetLevel ::= Real Level ::= Unsigned" = .ok definitions ∧
      ofRecords [zone] = .ok registry ∧
      normalizeAll (some registry) .standard (definitions.map (·.draft)) = (results, none) ∧
      results.map (·.data) = [zone, level "BACnetLevel" "real", level "Level" "unsigned"] ∧
      ofRecords ([zone] ++ results.map (·.data)) = .ok extended ∧
      normalizeAll (some extended) .standard (definitions.map (·.draft)) = (again, none) ∧
      again.map (·.data) = results.map (·.data) := by
  obtain ⟨definitions, accepted, names⟩ :
      ∃ definitions, parse "Foo ::= Real BACnetLevel ::= Real Level ::= Unsigned" = .ok definitions ∧
        definitions = [{ name := "Foo", type := "Real" }, { name := "BACnetLevel", type := "Real" },
          { name := "Level", type := "Unsigned" }] := ⟨_, by cbv, rfl⟩
  obtain ⟨registry, results, built, normalized, data⟩ :
      ∃ registry results, ofRecords [zone] = .ok registry ∧
        normalizeAll (some registry) .standard (definitions.map (·.draft)) = (results, none) ∧
        results.map (·.data) = [zone, level "BACnetLevel" "real", level "Level" "unsigned"] := by
    subst names
    exact ⟨_, _, rfl, rfl, rfl⟩
  obtain ⟨extended, again, rebuilt, renormalized, same⟩ := normalizeAll_feedback
    (fun definition member => ⟨_, _, accepted, member⟩) (by rw [names]; decide)
    (fun index => List.pairwise_singleton _ _) built normalized
  exact ⟨definitions, registry, extended, results, again, accepted, built, normalized, data, rebuilt, renormalized, same⟩

end TypeCatalog.Proofs
