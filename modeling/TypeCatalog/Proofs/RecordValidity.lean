import TypeCatalog.Proofs.RecordContents

/-! The record of a definition is valid. The schema of records tries a type as a name first, and the refusal of an object
tells the object: where it has an integer with too many digits, the check fails instead of giving an answer. -/

namespace TypeCatalog.Proofs
open TypeCatalog.Normal Source

section
open Schema

private def typeSchemas : List Data :=
  [Standard.string, Standard.typed "object"
    [("required", Standard.texts ["base"]), ("properties", .record [("base", Standard.string)])]]

private theorem based_accepted (base : String) (more : List (String × Data)) :
    check .draft7 true (.record (("base", .text base) :: more)) (Standard.typed "object"
      [("required", Standard.texts ["base"]), ("properties", .record [("base", Standard.string)])]) = .ok true := by
  rw [object_true rfl rfl]
  refine ⟨_, rfl, ?_⟩
  simp only [named, List.map_cons, List.map_nil, List.forall_mem_cons, List.not_mem_nil, false_implies, implies_true,
    and_true]
  constructor
  · rw [required_true (by decide), List.forall_mem_singleton]
    rfl
  · rw [properties_true (by decide), List.forall_mem_singleton]
    intro value found
    cases found
    rfl

private theorem type_answer {data : Data} (typed : IsType data) :
    checkOneOf .draft7 data typeSchemas = if data.isWritable then .ok true else .error .tooManyDigits := by
  cases typed with
  | name text => rfl
  | object base more =>
    have refused : check .draft7 true (.record (("base", .text base) :: more)) Standard.string =
        reject [.record (("base", .text base) :: more)] := both_last _
    rw [typeSchemas, checkOneOf, refused, checkOneOf, based_accepted, reject, List.all_cons, List.all_nil, Bool.and_true]
    split <;> rfl

private theorem record_answer (own name : String) {primitive comment : List (String × Data)} (type : Data)
    (tagged : primitive = [] ∨ ∃ tag, primitive = [("primitive", .int tag)])
    (noted : comment = [] ∨ ∃ text, comment = [("comment", .text text)]) :
    Schema.accepts Standard.record (.record ([("alias", .text own), ("name", .text name)] ++ primitive ++ comment ++
      [("type", type)])) = checkOneOf .draft7 type typeSchemas := by
  have last : Schema.accepts Standard.record (.record ([("alias", .text own), ("name", .text name)] ++ primitive ++
      comment ++ [("type", type)])) = both false (both false (both false (checkOneOf .draft7 type typeSchemas)
        fun _ => .ok true) fun _ => .ok true) fun _ => .ok true := by
    rcases tagged with rfl | ⟨tag, rfl⟩
    · rcases noted with rfl | ⟨text, rfl⟩
      · rfl
      · rfl
    · rcases noted with rfl | ⟨text, rfl⟩
      · rfl
      · rfl
  rw [last, both_last, both_last, both_last]

/-- Validity of a record is a matter of the integers in its type. -/
theorem validate_made (own name : String) {primitive comment : List (String × Data)} {type : Data}
    (tagged : primitive = [] ∨ ∃ tag, primitive = [("primitive", .int tag)])
    (noted : comment = [] ∨ ∃ text, comment = [("comment", .text text)]) (typed : IsType type) :
    Standard.repository.validate Standard.recordId (.record ([("alias", .text own), ("name", .text name)] ++ primitive ++
      comment ++ [("type", type)])) = if type.isWritable then .ok () else .error .tooManyDigits := by
  change (do if !(← Schema.accepts Standard.record _) then throw Failure.schemaViolated) = _
  rw [record_answer own name type tagged noted, type_answer typed]
  cases type.isWritable <;> rfl

end

section
variable {definition : Definition} {result : Normalized} {registry : Option Registry}

private theorem made_recorded (parsed : Parsed definition) (made : normalize none .standard definition.draft = .ok result) :
    AllFinite result.data ∧ ShowsBounds definition.toShape result.data ∧
      (Unwritable definition.name definition.toShape →
        Standard.repository.validate Standard.recordId result.data = .error .tooManyDigits) ∧
      (¬ Unwritable definition.name definition.toShape →
        Standard.repository.validate Standard.recordId result.data = .ok ()) := by
  have fits : DefinitionFits readRules definition := parsed.fits
  obtain ⟨primitive, comment, type, typed, tagged, noted, same⟩ := normalize_made made
  have recorded := type_recorded definition.toShape _ _ _ (definition_draft definition) fits.shape typed
  have valid := validate_made definition.name (Name.ofType definition.name) tagged noted recorded.type
  rw [same]
  refine ⟨?_, ?_, ?_, ?_⟩
  · simp only [allFinite_record, List.forall_mem_append, List.forall_mem_cons, List.not_mem_nil, false_implies, implies_true,
      and_true]
    refine ⟨⟨⟨⟨allFinite_text _, allFinite_text _⟩, ?_⟩, ?_⟩, recorded.finite⟩
    · rcases tagged with rfl | ⟨tag, rfl⟩
      · exact List.forall_mem_nil _
      · simpa using allFinite_int tag
    · rcases noted with rfl | ⟨text, rfl⟩
      · exact List.forall_mem_nil _
      · simpa using allFinite_text text
  · exact recorded.bounds.inside (occurs_record "type" (by simp) .here)
  · intro unwritable
    rw [valid, if_neg]
    intro writable
    exact recorded.writable.mp writable unwritable
  · intro fitting
    rw [valid, if_pos (recorded.writable.mpr fitting)]

/-- Every result for a definition of an accepted text has finite numbers only, and bounds that are infinite are words in
it. A record that was found is as valid as those in the registry are. One that was made is valid unless there is a number
in it that is not one of the text and has too many digits to be written. -/
theorem normalize_recorded (parsed : Parsed definition)
    (valid : ∀ key entry, registry.bind (·.get? key) = some entry →
      Standard.repository.validate Standard.recordId entry.record = .ok () ∧ AllFinite entry.record)
    (normalized : normalize registry .standard definition.draft = .ok result) :
    AllFinite result.data ∧ Yaml.checkFinite result.data = .ok () ∧
      match result with
      | .found entry => Standard.repository.validate Standard.recordId entry.record = .ok ()
      | .made record => ShowsBounds definition.toShape record ∧
        (Unwritable definition.name definition.toShape →
          Standard.repository.validate Standard.recordId record = .error .tooManyDigits) ∧
        (¬ Unwritable definition.name definition.toShape →
          Standard.repository.validate Standard.recordId record = .ok ()) := by
  rw [checkFinite_ok, ← and_assoc, and_self]
  rcases normalize_source normalized with ⟨key, entry, found, rfl⟩ | ⟨made, record, rfl⟩
  · obtain ⟨sound, finite⟩ := valid key entry found
    exact ⟨finite, sound⟩
  · exact made_recorded parsed made

end

private def meterRecord : Data := .record [("alias", .text "Meter"), ("name", .text "meter"), ("type", .text "real")]

/-- A bound that is infinite is a word in a record that is valid, deep inside of it. -/
theorem normalize_recorded_span : ∃ (definition : Definition) (registry : Registry) (record : Data),
    parse "Zone ::= SEQUENCE \x7b span [0] Real (MIN..MAX) \x7d" = .ok [definition] ∧
    Registry.ofRecords [meterRecord] = .ok registry ∧
    Standard.repository.validate Standard.recordId meterRecord = .ok () ∧
    normalize (some registry) .standard definition.draft = .ok (.made record) ∧ Yaml.checkFinite record = .ok () ∧
    Occurs (.text "MAX") record ∧ Standard.repository.validate Standard.recordId record = .ok () := by
  have listed : Standard.repository.validate Standard.recordId meterRecord = .ok () := by rfl
  have finite : AllFinite meterRecord := (checkFinite_ok _).mp rfl
  obtain ⟨definition, registry, record, span, accepted, built, normalized, items, itemless, bounds⟩ :
      ∃ (definition : Definition) (registry : Registry) (record : Data) (span : Shape),
        parse "Zone ::= SEQUENCE \x7b span [0] Real (MIN..MAX) \x7d" = .ok [definition] ∧
        Registry.ofRecords [meterRecord] = .ok registry ∧
        normalize (some registry) .standard definition.draft = .ok (.made record) ∧
        definition.items = some [member "span" (some 0) false span] ∧ span.items = none ∧
        shownBounds span = [.real (.infinite true), .real (.infinite false)] :=
    ⟨_, _, _, { type := "Real", range := some ⟨.real (.infinite true), .real (.infinite false)⟩ }, by cbv, by rfl, by rfl,
      by rfl, rfl, rfl⟩
  have parsed : Parsed definition := ⟨_, _, accepted, List.mem_singleton_self _⟩
  have valid : ∀ key entry, (some registry).bind (·.get? key) = some entry →
      Standard.repository.validate Standard.recordId entry.record = .ok () ∧ AllFinite entry.record := by
    intro key entry found
    rw [List.mem_singleton.mp (answer_mem built found)]
    exact ⟨listed, finite⟩
  have inner : Inside span definition.toShape := ⟨items, List.mem_singleton_self _⟩
  have fitting : ¬ Unwritable definition.name definition.toShape := by
    intro unwritable
    rcases overfull_iff.mp unwritable.1 with ⟨item, inside, untyped, -⟩ | ⟨other, within, overfull⟩
    · rw [items] at inside
      cases List.mem_singleton.mp inside
      cases untyped
    · obtain ⟨name, tag, isOptional, inside⟩ := within.listed
      rw [items] at inside
      rw [member_shape (List.mem_singleton.mp inside)] at overfull
      exact not_overfull_itemless itemless overfull
  obtain ⟨-, checked, shown, -, sound⟩ := normalize_recorded parsed valid normalized
  have word := shown span (.single inner) (.real (.infinite false)) (by simp [bounds])
  exact ⟨definition, registry, record, accepted, built, listed, normalized, checked, word, sound fitting⟩

private def nines (count : Nat) : List Char := "A ::= ENUMERATED \x7b a (".toList ++ List.replicate count '9' ++ ") \x7d".toList

private theorem nines_plain (count : Nat) : '\r' ∉ nines count := by
  intro inside
  rcases List.mem_append.mp inside with front | last
  · rcases List.mem_append.mp front with first | nine
    · exact absurd first (by decide)
    · exact absurd (List.eq_of_mem_replicate nine) (by decide)
  · exact absurd last (by decide)

private theorem nines_outcome : (match readContent (nines digitLimit) with
    | .ok [definition] => match normalize none .standard definition.draft with
      | .ok result => match Standard.repository.validate Standard.recordId result.data with
        | .error .tooManyDigits => true
        | _ => false
      | .error _ => false
    | _ => false) = true := by
  decide +kernel

/-- The number after one with as many digits as can be read has a digit more, and a record with it is not valid. -/
theorem normalize_unvalidated : ∃ definition result, parse (String.ofList (nines digitLimit)) = .ok [definition] ∧
    normalize none .standard definition.draft = .ok result ∧
    Standard.repository.validate Standard.recordId result.data = .error .tooManyDigits := by
  have outcome := nines_outcome
  split at outcome
  next definition read =>
    split at outcome
    next result normalized =>
      split at outcome
      next rejected =>
        refine ⟨definition, result, ?_, normalized, rejected⟩
        rw [parse_eq_ok, String.toList_ofList, unify_plain (nines_plain digitLimit), read]
      next => cases outcome
    next => cases outcome
  next => cases outcome

end TypeCatalog.Proofs
