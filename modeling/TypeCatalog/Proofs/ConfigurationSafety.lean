import TypeCatalog.Proofs.SchemaKeywords
import TypeCatalog.Proofs.TypeForms

/-! Valid configurations can be used. The schema of configurations asks for everything that records take out of tables of
well known types, so with the tables of a valid configuration a definition of an accepted text has its record, unless its
numbers are too great. -/

namespace TypeCatalog.Proofs
open TypeCatalog.Normal Source

/-- A result is there, or else a number was too great to be shown. -/
def Spares {α : Type} (fits : Bool) : Except Failure α → Prop
  | .ok _ => True
  | .error failure => fits = false ∧ (failure = .overflow ∨ failure = .tooManyDigits)

section
variable {α β : Type} {fits more : Bool} {result : Except Failure α}

theorem Agrees.spares (agrees : Agrees fits result) : Spares fits result := by
  cases result with
  | ok value => trivial
  | error failure => exact agrees

theorem Spares.bind {next : α → Except Failure β} (first : Spares fits result) (second : ∀ value, Spares more (next value)) :
    Spares (fits && more) (result >>= next) := by
  cases result with
  | error failure => exact ⟨by rw [first.1]; rfl, first.2⟩
  | ok value =>
    have later := second value
    change Spares (fits && more) (next value)
    cases made : next value with
    | ok made => trivial
    | error failure =>
      rw [made] at later
      exact ⟨by rw [later.1, Bool.and_false], later.2⟩

theorem Spares.follow {next : α → Except Failure β} (first : Spares fits result)
    (second : ∀ value, Spares true (next value)) : Spares fits (result >>= next) := by
  have both := first.bind second
  rwa [Bool.and_true] at both

theorem Spares.map (first : Spares fits result) (image : α → β) :
    Spares fits (result >>= fun value => pure (image value)) := by
  apply first.follow
  intro value
  trivial

theorem Spares.weaken (spared : Spares fits result) (weaker : fits = false → more = false) : Spares more result := by
  cases result with
  | ok value => trivial
  | error failure => exact ⟨weaker spared.1, spared.2⟩

end

def ObjectIfAny (fields : Fields) (name : String) : Prop :=
  ∀ value, fields.find? name = some value → ∃ inner, value = .object inner

inductive EnumeratedEntry : Data → Prop where
  | mk {fields range : Fields} (ranged : fields.find? "range" = some (.object range))
      (standard : ObjectIfAny fields "standard") (proprietary : ObjectIfAny fields "proprietary") :
      EnumeratedEntry (.object fields)

inductive BitStringEntry : Data → Prop where
  | mk {fields : Fields} {maximum : Data} (limited : fields.find? "maximum" = some maximum)
      (proprietary : ObjectIfAny fields "proprietary") : BitStringEntry (.object fields)

/-- Tables in which records can be looked up. -/
structure Usable (tables : WellKnown) : Prop where
  enumerated : ∀ name entry, tables.enumerated.find? name = some entry → EnumeratedEntry entry
  bitString : ∀ name entry, tables.bitString.find? name = some entry → BitStringEntry entry

section
variable {fields : Fields} {name : String} {entry : Data}

theorem holds_of_find {value : Data} (found : fields.find? name = some value) : (Data.object fields).holds = true := by
  cases fields with
  | nil => cases found
  | cons field rest => rfl

theorem EnumeratedEntry.holds (usable : EnumeratedEntry entry) : entry.holds = true := by
  obtain ⟨ranged, -, -⟩ := usable
  exact holds_of_find ranged

theorem BitStringEntry.holds (usable : BitStringEntry entry) : entry.holds = true := by
  obtain ⟨limited, -⟩ := usable
  exact holds_of_find limited

theorem copied_ok (object : ObjectIfAny fields name) : ∃ more, copied name (.object fields) = .ok more := by
  have field : (Data.object fields).find? name = fields.find? name := rfl
  rw [copied, field]
  cases found : fields.find? name with
  | none => exact ⟨_, rfl⟩
  | some value =>
    obtain ⟨inner, rfl⟩ := object value found
    exact ⟨_, rfl⟩

end

section
variable {tables : WellKnown} {items : List Item} {draft first : Draft} {rest : List Draft} {name : String} {shape : Shape}

theorem bitString_usable (usable : Usable tables) (named : draft.name = .text name)
    (drafts : first :: rest = Item.listDraft items) (values : ∀ item ∈ items, IsValue item) :
    ∃ record, bitString tables draft first rest = .ok record := by
  obtain ⟨limits, known⟩ := extent_values drafts values
  obtain ⟨bits, listed⟩ := numbered_values values "position"
  have looked : entryFor tables.bitString (.text name) = .ok (tables.bitString.find? name) :=
    entryFor_usable fun entry found => (usable.bitString name entry found).holds
  rw [bitString, drafts, known, listed, named, looked]
  cases found : tables.bitString.find? name with
  | none => exact ⟨_, rfl⟩
  | some entry =>
    cases usable.bitString name entry found with
    | mk limited proprietary =>
      obtain ⟨more, copied⟩ := copied_ok proprietary
      simp only [bind, Except.bind, required, limited, copied]
      exact ⟨_, rfl⟩

theorem enumerated_spares (usable : Usable tables)
    (covering : ∀ name, tables.enumerated.find? name = none → WellKnown.standard.enumerated.find? name = none)
    (drawn : DraftOf draft name shape) (kind : Kind.ofTypeName? shape.type = some .enumerated)
    (listed : shape.items = some items) (drafts : first :: rest = Item.listDraft items)
    (values : ∀ item ∈ items, IsValue item) :
    Spares ((quotedNumbers name shape).all (·.length ≤ digitLimit)) (enumerated tables draft first rest) := by
  obtain ⟨limits, known⟩ := extent_values drafts values
  obtain ⟨entries, numbers⟩ := numbered_values values "constant"
  have looked : entryFor tables.enumerated (.text name) = .ok (tables.enumerated.find? name) :=
    entryFor_usable fun entry found => (usable.enumerated name entry found).holds
  rw [enumerated, drafts, known, numbers, drawn.name, looked]
  cases found : tables.enumerated.find? name with
  | some entry =>
    cases usable.enumerated name entry found with
    | mk ranged standard proprietary =>
      obtain ⟨first, copied⟩ := copied_ok standard
      obtain ⟨second, copied'⟩ := copied_ok proprietary
      simp only [bind, Except.bind, required, ranged, Data.toFields, copied, copied']
      trivial
  | none =>
    rw [quotedNumbers, kind, listed, covering name found, drawn.extensible]
    cases shape.extensible with
    | false => trivial
    | true =>
      have spans := (@reservedSpans_agrees items draft shape.comment drawn.comment).spares
      apply spans.follow
      intro found
      cases found <;> trivial

theorem members_spare {areFields : Bool} {kind : Kind} (complex : kind.isSimple = false)
    (each : ∀ item ∈ items, ItemFits plainRules kind item)
    (inner : ∀ name tag isOptional shape, member name tag isOptional shape ∈ items → ShapeFits plainRules shape →
      Spares (itemFits (member name tag isOptional shape)) (type tables (member name tag isOptional shape).draft)) :
    Spares (itemsFit items) (members tables areFields (Item.listDraft items)) := by
  induction items with
  | nil => trivial
  | cons item rest ih =>
    obtain ⟨name, tag, isOptional, shape, rfl, -, -, fits⟩ := (each item List.mem_cons_self).member_of_complex complex
    have own := inner name tag isOptional shape List.mem_cons_self fits
    have others := ih (fun item later => each item (List.mem_cons_of_mem _ later))
      fun name tag isOptional shape later => inner name tag isOptional shape (List.mem_cons_of_mem _ later)
    rw [Item.listDraft, members, itemsFit]
    apply own.bind
    intro type
    exact others.map _

theorem values_of_simple {rules : Rules} {kind : Kind} (simple : kind.isComplex = false)
    (each : ∀ item ∈ items, ItemFits rules kind item) : ∀ item ∈ items, IsValue item := by
  intro item listed
  obtain ⟨name, number, comment, rfl, -⟩ := (each item listed).value_of_simple simple
  exact ⟨name, number, comment, rfl⟩

theorem type_spares (usable : Usable tables)
    (covering : ∀ name, tables.enumerated.find? name = none → WellKnown.standard.enumerated.find? name = none)
    (shape : Shape) : ∀ draft name, DraftOf draft name shape → ShapeFits plainRules shape →
      Spares (numbersFit name shape && listFits shape.items) (type tables draft) := by
  induction shape using nested_induction with
  | step shape ih =>
    intro draft name drawn fits
    obtain ⟨base, form, made⟩ := type_form drawn fits
    rw [made, numbersFit]
    apply Spares.map
    cases form with
    | plain => trivial
    | limited given shown =>
      apply (range_agrees _ _).spares.weaken
      intro unfit
      rw [shown, unfit, Bool.false_and, Bool.false_and]
    | sized given shown =>
      apply ((length_agrees _).map _).spares.weaken
      intro unfit
      rw [shown, unfit, Bool.false_and, Bool.false_and]
    | bits kind listed bare each =>
      obtain ⟨record, known⟩ := bitString_usable usable drawn.name rfl (values_of_simple rfl each)
      dsimp only
      rw [known]
      trivial
    | values kind listed bare each =>
      apply (enumerated_spares usable covering drawn kind listed rfl (values_of_simple rfl each)).weaken
      intro unfit
      rw [unfit, Bool.and_false, Bool.false_and]
    | @members base key areFields kind items other complex known listed bare each =>
      have whole : listFits shape.items = itemsFit items := by
        rw [← listed]
        cases shape.items <;> rfl
      have spared : Spares (itemsFit items) (members tables areFields (Item.listDraft items)) := by
        apply members_spare complex each
        intro name tag isOptional nested inside fits
        exact ih nested (inside_of_listed listed inside) _ name (member_draft name tag isOptional nested) fits
      apply (spared.map _).weaken
      intro unfit
      rw [whole, unfit, Bool.and_false]

end

section
open Schema
variable {thorough : Bool} {value conf : Data}

private theorem integerPair_object {first second : String}
    (accepted : check .draft7 thorough value (Standard.integerPair first second) = .ok true) :
    ∃ fields, value = .object fields := by
  obtain ⟨fields, rfl, -⟩ := (object_true rfl rfl).mp accepted
  exact ⟨fields, rfl⟩

theorem enumeratedEntry_usable (accepted : check .draft7 thorough value Standard.enumeratedEntry = .ok true) :
    EnumeratedEntry value := by
  obtain ⟨fields, rfl, keywords⟩ := (object_true rfl rfl).mp accepted
  simp only [named, List.map_cons, List.map_nil, List.forall_mem_cons] at keywords
  obtain ⟨needed, given, -⟩ := keywords
  have present := (required_true (by decide)).mp needed
  have properties := (properties_true (by decide)).mp given
  simp only [List.forall_mem_cons] at present properties
  obtain ⟨ranged, standard, proprietary, -⟩ := properties
  obtain ⟨range, found⟩ := Option.isSome_iff_exists.mp present.1
  obtain ⟨inner, rfl⟩ := integerPair_object (ranged range found)
  exact ⟨found, fun value held => integerPair_object (standard value held),
    fun value held => integerPair_object (proprietary value held)⟩

theorem bitStringEntry_usable (accepted : check .draft7 thorough value Standard.bitStringEntry = .ok true) :
    BitStringEntry value := by
  obtain ⟨fields, rfl, keywords⟩ := (object_true rfl rfl).mp accepted
  simp only [named, List.map_cons, List.map_nil, List.forall_mem_cons] at keywords
  obtain ⟨needed, given, -⟩ := keywords
  have present := (required_true (by decide)).mp needed
  have properties := (properties_true (by decide)).mp given
  simp only [List.forall_mem_cons] at present properties
  obtain ⟨-, proprietary, -⟩ := properties
  obtain ⟨maximum, found⟩ := Option.isSome_iff_exists.mp present.1
  exact ⟨found, fun value held => integerPair_object (proprietary value held)⟩

private theorem table_entries {entry : Fields} (accepted : check .draft7 thorough value (Standard.table (.object entry)) = .ok true) :
    ∃ fields, value = .object fields ∧ ∀ field ∈ fields, check .draft7 thorough field.2 (.object entry) = .ok true := by
  obtain ⟨fields, rfl, keywords⟩ := (object_true rfl rfl).mp accepted
  refine ⟨fields, rfl, (additional_true ?_).mp (keywords _ List.mem_cons_self)⟩
  rfl

private theorem configuration_object (valid : Standard.repository.validate Standard.configurationId conf = .ok ()) :
    ∃ fields : Fields, conf = .object fields ∧ ∀ value, fields.find? "well_known" = some value →
      check .draft7 false value Standard.tables = .ok true := by
  have accepted := (validate_ok_iff rfl fun _ => rfl).mp valid
  obtain ⟨schema, document⟩ := objectDocument_true _ _ _
  obtain ⟨fields, rfl, keywords⟩ := (document conf).mp accepted
  simp only [named, List.map_cons, List.map_nil, List.forall_mem_cons] at keywords
  have properties := (properties_true (by decide)).mp keywords.1
  simp only [List.forall_mem_cons] at properties
  exact ⟨fields, rfl, properties.2.2.2.1⟩

/-- A valid configuration has tables, whose entries can all be used. -/
theorem configuration_tables (valid : Standard.repository.validate Standard.configurationId conf = .ok ()) :
    ∃ (fields : Fields) (tables : WellKnown), conf = .object fields ∧
      WellKnown.ofData ((fields.find? "well_known").getD (.object [])) = .ok tables ∧
      (∀ field ∈ tables.enumerated, EnumeratedEntry field.2) ∧ ∀ field ∈ tables.bitString, BitStringEntry field.2 := by
  obtain ⟨fields, rfl, given⟩ := configuration_object valid
  refine ⟨fields, ?_⟩
  cases found : fields.find? "well_known" with
  | none => exact ⟨⟨[], []⟩, rfl, rfl, List.forall_mem_nil _, List.forall_mem_nil _⟩
  | some value =>
    obtain ⟨inner, rfl, keywords⟩ := (object_true rfl rfl).mp (given value found)
    have properties := (properties_true (by decide)).mp (keywords _ List.mem_cons_self)
    simp only [List.forall_mem_cons] at properties
    obtain ⟨enumerated, bitString, -⟩ := properties
    have first : ∃ table, ((Fields.find? inner "enumerated").getD (.object [])).toFields = .ok table ∧
        ∀ field ∈ table, EnumeratedEntry field.2 := by
      cases held : Fields.find? inner "enumerated" with
      | none => exact ⟨[], rfl, List.forall_mem_nil _⟩
      | some value =>
        obtain ⟨table, rfl, entries⟩ := table_entries (enumerated value held)
        exact ⟨table, rfl, fun field listed => enumeratedEntry_usable (entries field listed)⟩
    have second : ∃ table, ((Fields.find? inner "bit_string").getD (.object [])).toFields = .ok table ∧
        ∀ field ∈ table, BitStringEntry field.2 := by
      cases held : Fields.find? inner "bit_string" with
      | none => exact ⟨[], rfl, List.forall_mem_nil _⟩
      | some value =>
        obtain ⟨table, rfl, entries⟩ := table_entries (bitString value held)
        exact ⟨table, rfl, fun field listed => bitStringEntry_usable (entries field listed)⟩
    obtain ⟨enumerations, read, usable⟩ := first
    obtain ⟨bitStrings, read', usable'⟩ := second
    refine ⟨⟨enumerations, bitStrings⟩, rfl, ?_, usable, usable'⟩
    change WellKnown.ofData (.object inner) = _
    rw [WellKnown.ofData, read, read']
    rfl

end

theorem standard_usable : Usable .standard := by
  constructor
  · intro name entry found
    obtain ⟨field, listed, rfl⟩ := field_of_find found
    obtain ⟨name, standardTo, proprietaryTo, rfl⟩ := standard_entries.1 field listed
    exact ⟨rfl, fun value held => ⟨_, (Option.some.inj held).symm⟩, fun value held => ⟨_, (Option.some.inj held).symm⟩⟩
  · intro name entry found
    obtain ⟨field, listed, rfl⟩ := field_of_find found
    rw [standard_entries.2 field listed]
    exact ⟨rfl, fun value held => ⟨_, (Option.some.inj held).symm⟩⟩

theorem Usable.merge {base override : WellKnown} (usable : Usable base)
    (enumerated : ∀ field ∈ override.enumerated, EnumeratedEntry field.2)
    (bitString : ∀ field ∈ override.bitString, BitStringEntry field.2) : Usable (base.merge override) := by
  constructor
  · intro name entry found
    rcases merge_found found with ⟨field, listed, rfl⟩ | old
    · exact enumerated field listed
    · exact usable.enumerated name entry old
  · intro name entry found
    rcases merge_found found with ⟨field, listed, rfl⟩ | old
    · exact bitString field listed
    · exact usable.bitString name entry old

theorem merge_covers (tables : WellKnown) (name : String)
    (missing : (WellKnown.standard.merge tables).enumerated.find? name = none) :
    WellKnown.standard.enumerated.find? name = none := by
  rw [← Option.not_isSome_iff_eq_none]
  intro known
  have kept : ((WellKnown.standard.merge tables).enumerated.find? name).isSome = true := merge_keeps known
  rw [missing] at kept
  cases kept

/-- The tables of a valid configuration can be read and put over those of the standard, and with them every definition of
an accepted text has its record, unless its own numbers are too great to be shown. -/
theorem normalize_configured {conf : Data} (valid : Standard.repository.validate Standard.configurationId conf = .ok ()) :
    ∃ (fields : Fields) (tables : WellKnown), conf = .object fields ∧
      WellKnown.ofData ((fields.find? "well_known").getD (.object [])) = .ok tables ∧
      ∀ definition, Parsed definition →
        Spares (definitionFits definition) (normalize none (WellKnown.standard.merge tables) definition.draft) := by
  obtain ⟨fields, tables, object, read, enumerated, bitString⟩ := configuration_tables valid
  refine ⟨fields, tables, object, read, ?_⟩
  intro definition parsed
  have fits : DefinitionFits plainRules definition := parsed.fits
  have usable := standard_usable.merge enumerated bitString
  have spared := type_spares usable (merge_covers tables) definition.toShape _ _ (definition_draft definition) fits.shape
  exact spared.map _

private def stateTable : Data :=
  .record [("well_known", .record [("enumerated", .record [("State", .record
    [("range", .limits (.int 0) (.int 8)), ("standard", .valueSpan 0 3)])])])]

/-- With a valid configuration that has an entry for it, an enumeration has the range of the entry. -/
theorem normalize_configured_state : ∃ (fields : Fields) (tables : WellKnown) (definition : Definition) (result : Normalized),
    stateTable = .object fields ∧ Standard.repository.validate Standard.configurationId stateTable = .ok () ∧
    WellKnown.ofData ((fields.find? "well_known").getD (.object [])) = .ok tables ∧
    parse "State ::= ENUMERATED \x7b off (0), ... \x7d" = .ok [definition] ∧
    normalize none (WellKnown.standard.merge tables) definition.draft = .ok result := by
  have valid : Standard.repository.validate Standard.configurationId stateTable = .ok () := by rfl
  obtain ⟨definition, accepted, fit⟩ : ∃ definition,
      parse "State ::= ENUMERATED \x7b off (0), ... \x7d" = .ok [definition] ∧ definitionFits definition = true :=
    ⟨_, by cbv, rfl⟩
  obtain ⟨fields, tables, object, read, spared⟩ := normalize_configured valid
  have own := spared definition ⟨_, _, accepted, List.mem_singleton_self _⟩
  cases normalized : normalize none (WellKnown.standard.merge tables) definition.draft with
  | ok result => exact ⟨fields, tables, definition, result, object, valid, read, accepted, normalized⟩
  | error failure =>
    rw [normalized, fit] at own
    cases own.1

end TypeCatalog.Proofs
