import Mathlib.Data.List.Forall2
import TypeCatalog.Normal.Normalize
import TypeCatalog.Proofs.RegistryLookup

/-! Where the record of a definition comes from. A registry is asked for the definition's own name and then for its name
in the catalogue, each as an alias and as a name; only if it has neither is a record made. -/

namespace TypeCatalog.Proofs
open Registry TypeCatalog.Normal

/-- The first that there is of the last records with the definition's name as alias and as name, and with its name in
the catalogue as alias and as name. -/
def precedence (records : List Data) (name : String) : Option Data :=
  (lastWith .byAlias (.text name) records).or <| (lastWith .byName (.text name) records).or <|
    (lastWith .byAlias (.text (Name.ofType name)) records).or (lastWith .byName (.text (Name.ofType name)) records)

section
variable {key : Key} {records : List Data} {registry : Registry} {entry : Entry}

private theorem keyed_holds {record : Data} {field : String} {held : Key} (known : keyOf record field = .ok held) :
    record.holds = true := by
  cases record with
  | object fields =>
    cases fields with
    | nil => cases known
    | cons field rest => rfl
  | _ => cases known

theorem answer_holds (built : ofRecords records = .ok registry) (found : registry.get? key = some entry) :
    entry.record.holds = true := by
  have inTable (index : Index) (found : (index.table registry).get? key = some entry) : entry.record.holds = true := by
    obtain ⟨row, first, rfl⟩ := Option.map_eq_some_iff.mp found
    obtain ⟨held, known, -⟩ := (@ofRecords_wellKeyed index _ _ built).keyed row (List.mem_of_find?_eq_some first)
    exact keyed_holds known
  rw [Registry.get?, Option.or_eq_some_iff] at found
  rcases found with first | ⟨-, second⟩
  · exact inTable .byAlias first
  · exact inTable .byName second

private def looked (registry : Registry) (name : String) : Option Entry :=
  ((registry.get? (.text name)).filter (·.record.holds)).or (registry.get? (.text (Name.ofType name)))

private theorem looked_eq (built : ofRecords records = .ok registry) (name : String) :
    (looked registry name).map (·.record) = precedence records name := by
  have kept : (registry.get? (.text name)).filter (·.record.holds) = registry.get? (.text name) := by
    cases found : registry.get? (.text name) with
    | none => rfl
    | some entry => simp [Option.filter, answer_holds built found]
  rw [looked, kept, precedence, ← Option.or_assoc, ← answer_eq built, ← answer_eq built, answer, answer]
  cases registry.get? (.text name) <;> rfl

private theorem normalize_looked (registry : Registry) (tables : WellKnown) {draft : Draft} {name : String}
    (titled : draft.name = .text name) :
    normalize (some registry) tables draft =
      match looked registry name with
      | some entry => .ok (.found entry)
      | none => normalize none tables draft := by
  obtain ⟨_, type, number, optional, primitive, series, size, range, items, extensible, comment⟩ := draft
  cases titled
  change (match looked registry name with
    | some entry => Except.ok (Normalized.found entry)
    | none => _) = _
  cases looked registry name <;> rfl

/-- A record that the registry has for a name is the result for every draft with this name. -/
theorem draft_found (built : ofRecords records = .ok registry) {draft : Draft} {name : String} {record : Data}
    (titled : draft.name = .text name) (found : precedence records name = some record) (tables : WellKnown) :
    ∃ entry, normalize (some registry) tables draft = .ok (.found entry) ∧ entry.record = record := by
  rw [← looked_eq built] at found
  obtain ⟨entry, known, rfl⟩ := Option.map_eq_some_iff.mp found
  refine ⟨entry, ?_, rfl⟩
  rw [normalize_looked registry tables titled, known]

/-- A registry without a record for the name of a draft does not matter. -/
theorem draft_absent (built : ofRecords records = .ok registry) {draft : Draft} {name : String}
    (titled : draft.name = .text name) (absent : precedence records name = none) (tables : WellKnown) :
    normalize (some registry) tables draft = normalize none tables draft := by
  rw [← looked_eq built, Option.map_eq_none_iff] at absent
  rw [normalize_looked registry tables titled, absent]

theorem normalize_found (built : ofRecords records = .ok registry) {definition : Definition} {record : Data}
    (found : precedence records definition.name = some record) (tables : WellKnown) :
    ∃ result, normalize (some registry) tables definition.draft = .ok result ∧ result.data = record := by
  obtain ⟨entry, known, same⟩ := draft_found built (rfl : definition.draft.name = .text definition.name) found tables
  exact ⟨.found entry, known, same⟩

theorem normalize_absent (built : ofRecords records = .ok registry) {definition : Definition}
    (absent : precedence records definition.name = none) (tables : WellKnown) :
    normalize (some registry) tables definition.draft = normalize none tables definition.draft :=
  draft_absent built rfl absent tables

end

theorem made_keys {tables : WellKnown} {definition : Definition} {result : Normalized}
    (normalized : normalize none tables definition.draft = .ok result) :
    keyOf result.data "alias" = .ok (.text definition.name) ∧
      keyOf result.data "name" = .ok (.text (Name.ofType definition.name)) := by
  change ((type tables definition.draft).bind fun type => _) = _ at normalized
  cases typed : type tables definition.draft with
  | error failure =>
    rw [typed] at normalized
    cases normalized
  | ok type =>
    rw [typed] at normalized
    cases normalized
    exact ⟨rfl, rfl⟩

/-- All definitions have records exactly if every one has its own. -/
theorem normalizeAll_ok_iff {registry : Option Registry} {tables : WellKnown} {drafts : List Draft}
    {results : List Normalized} :
    normalizeAll registry tables drafts = (results, none) ↔
      List.Forall₂ (fun draft result => normalize registry tables draft = .ok result) drafts results := by
  induction drafts generalizing results with
  | nil =>
    rw [normalizeAll, List.forall₂_nil_left_iff, Prod.mk.injEq]
    exact ⟨fun same => same.1.symm, fun same => ⟨same.symm, rfl⟩⟩
  | cons draft rest ih =>
    rw [normalizeAll, List.forall₂_cons_left_iff]
    cases first : normalize registry tables draft with
    | error failure =>
      refine iff_of_false (by simp) ?_
      rintro ⟨result, others, same, -⟩
      cases same
    | ok result =>
      cases others : normalizeAll registry tables rest with
      | mk found failure =>
        simp only [Prod.mk.injEq]
        constructor
        · rintro ⟨rfl, rfl⟩
          exact ⟨result, found, rfl, ih.mp others, rfl⟩
        · rintro ⟨_, more, ⟨⟩, each, rfl⟩
          have same := ih.mpr each
          rw [others, Prod.mk.injEq] at same
          exact ⟨by rw [same.1], same.2⟩

end TypeCatalog.Proofs
