import TypeCatalog.Command.Run
import TypeCatalog.Proofs.ConfigurationSafety
import TypeCatalog.Proofs.DistinctKeys

/-! Marks on the output. They tell which collections are one and the same and nothing else: without its marks, a record
that was made is as it was made, and one that was found in the registry is as it is there. -/

namespace TypeCatalog.Proofs
open TypeCatalog.Normal Command Sharing

def FieldsHave (holds : Key → Data → Prop) : Data → Prop
  | .object fields => ∀ field ∈ fields, holds field.1 field.2
  | _ => True

section
variable {holds : Key → Data → Prop} {entries : List (String × Data)} {data : Data}

theorem fieldsHave_record : FieldsHave holds (.record entries) ↔ ∀ entry ∈ entries, holds (.text entry.1) entry.2 :=
  List.forall_mem_map

theorem put_have {fields : Fields} {name : String} {value : Data} (each : ∀ field ∈ fields, holds field.1 field.2)
    (own : holds (.text name) value) : ∀ field ∈ Fields.put (.text name) value fields, holds field.1 field.2 := by
  induction fields with
  | nil => exact List.forall_mem_singleton.mpr own
  | cons field rest ih =>
    obtain ⟨first, others⟩ := List.forall_mem_cons.mp each
    obtain ⟨key, old⟩ := field
    rw [Fields.put]
    split
    next same =>
      cases same_text.mp same
      exact List.forall_mem_cons.mpr ⟨own, others⟩
    next => exact List.forall_mem_cons.mpr ⟨first, ih others⟩

theorem withSeries_have {series type : Data} (each : FieldsHave holds type) (base : ∀ value, holds (.text "base") value)
    (repeated : ∀ value, holds (.text "series") value) : FieldsHave holds (withSeries series type) := by
  unfold withSeries
  split
  · exact each
  · split
    next fields => exact put_have each (repeated series)
    next =>
      rw [fieldsHave_record, List.forall_mem_cons, List.forall_mem_singleton]
      exact ⟨base type, repeated series⟩

theorem object_data {μ : Type} [BEq μ] {fields : Fields} {mark : Key × Data → Key × Marked μ}
    (each : ∀ field ∈ fields, (mark field).1 = field.1 ∧ (mark field).2.data = field.2) :
    (Marked.object none (fields.map mark)).data = .object fields := by
  change Data.object (Marked.fieldDataWith [] (fields.map mark)) = _
  rw [fieldDataWith_eq, List.map_map]
  congr 1
  calc fields.map _ = fields.map id :=
        List.map_congr_left fun field listed => Prod.ext (each field listed).1 (each field listed).2
    _ = fields := List.map_id fields

theorem markField_data {name : String} {mark : Data → Marked Origin}
    (each : FieldsHave (fun key value => key.same (.text name) = true → (mark value).data = value) data) :
    (markField name mark data).data = data := by
  cases data with
  | object fields =>
    apply object_data
    intro field listed
    refine ⟨rfl, ?_⟩
    dsimp only
    split
    next marked => exact each field listed marked
    next => exact plain_data _
  | _ => exact plain_data _

/-- A field that bears one of some names has what an entry has under that name, if the entry has something. -/
def Copied (entry : Marked Origin) (names : List String) (key : Key) (value : Data) : Prop :=
  ∀ name ∈ names, key.same (.text name) = true → ∀ part, entry.find? name = some part → part.data = value

theorem markCopies_data {entry : Marked Origin} {names : List String} (each : FieldsHave (Copied entry names) data) :
    (markCopies entry names data).data = data := by
  cases data with
  | object fields =>
    apply object_data
    intro field listed
    dsimp only
    split
    next name found =>
      refine ⟨rfl, ?_⟩
      have same : field.1.same (.text name) = true := by simpa using List.find?_some found
      dsimp only
      cases known : entry.find? name with
      | none => exact plain_data _
      | some part => exact (copy_data part).trans (each field listed name (List.mem_of_find?_eq_some found) same part known)
    next => exact ⟨rfl, plain_data _⟩
  | _ => exact plain_data _

theorem markItems_data {mark : List Data → List (Marked Origin)}
    (each : ∀ items, data = .array items → (mark items).map (·.data) = items) : (markItems mark data).data = data := by
  cases data with
  | array items =>
    change Data.array (Marked.listDataWith [] (mark items)) = _
    rw [listDataWith_eq]
    exact congrArg Data.array (each items rfl)
  | _ => exact plain_data _

end

section
variable {entry : Marked Origin} {names : List String} {name : String} {value data : Data}

theorem copied_other (other : name ∉ names) (value : Data) : Copied entry names (.text name) value := by
  intro listed member same
  rw [text_same, beq_iff_eq] at same
  exact absurd (same ▸ member) other

theorem copied_own (held : entry.data.find? name = some value) : Copied entry names (.text name) value := by
  intro listed _ same part found
  rw [text_same, beq_iff_eq] at same
  rw [find_data, same, found] at held
  exact Option.some.inj held

/-- A field that is copied from an entry has what the entry has. -/
theorem copied_made {fields : Fields} {more : List (String × Data)} (object : ObjectIfAny fields name)
    (whole : entry.data = .object fields) (made : Normal.copied name entry.data = .ok more) :
    ∀ field ∈ more, Copied entry names (.text field.1) field.2 := by
  have shown : entry.data.find? name = fields.find? name := by rw [whole]; rfl
  rw [Normal.copied] at made
  cases held : entry.data.find? name with
  | none =>
    rw [held] at made
    cases made
    exact List.forall_mem_nil _
  | some value =>
    obtain ⟨inner, rfl⟩ := object value (shown ▸ held)
    rw [held] at made
    cases made
    exact List.forall_mem_singleton.mpr (copied_own held)

theorem EnumeratedEntry.parts (usable : EnumeratedEntry data) : ∃ fields range : Fields, data = .object fields ∧
    fields.find? "range" = some (.object range) ∧ ObjectIfAny fields "standard" ∧ ObjectIfAny fields "proprietary" := by
  obtain ⟨ranged, standard, proprietary⟩ := usable
  exact ⟨_, _, rfl, ranged, standard, proprietary⟩

theorem BitStringEntry.parts (usable : BitStringEntry data) : ∃ fields : Fields, data = .object fields ∧
    ObjectIfAny fields "proprietary" := by
  obtain ⟨-, proprietary⟩ := usable
  exact ⟨_, rfl, proprietary⟩

theorem entryFor_found {table : Fields} {name : String} {entry : Data} (found : table.find? name = some entry)
    (holds : entry.holds = true) : entryFor table (.text name) = .ok (some entry) := by
  have holding : ∀ other, table.find? name = some other → other.holds = true := by
    intro other held
    rw [found] at held
    exact Option.some.inj held ▸ holds
  rw [entryFor_usable holding, found]

/-- Tables have what a marked configuration has, where it has something, and can use it. -/
structure Governs (shared : Marked Origin) (tables : WellKnown) : Prop where
  enumerated : ∀ name entry, entry? shared "enumerated" name = some entry →
    tables.enumerated.find? name = some entry.data ∧ EnumeratedEntry entry.data
  bitString : ∀ name entry, entry? shared "bit_string" name = some entry →
    tables.bitString.find? name = some entry.data ∧ BitStringEntry entry.data

variable {shared : Marked Origin} {tables : WellKnown} {draft first : Draft} {rest : List Draft}

theorem enumerated_copied (governs : Governs shared tables) (named : draft.name = .text name)
    (configured : entry? shared "enumerated" name = some entry) (made : enumerated tables draft first rest = .ok data) :
    FieldsHave (Copied entry ["range", "standard", "proprietary"]) data := by
  obtain ⟨found, usable⟩ := governs.enumerated name entry configured
  rw [enumerated, named, entryFor_found found usable.holds] at made
  obtain ⟨fields, range, whole, ranged, standard, proprietary⟩ := usable.parts
  have shown : entry.data.find? "range" = some (.object range) := by
    rw [whole]
    exact ranged
  obtain ⟨⟨minimum, maximum⟩, -, made⟩ := of_bind_ok made
  obtain ⟨values, -, made⟩ := of_bind_ok made
  obtain ⟨_, ⟨⟩, made⟩ := of_bind_ok made
  dsimp only at made
  obtain ⟨given, held, made⟩ := of_bind_ok made
  rw [whole, required, ranged] at held
  cases held
  obtain ⟨_, ⟨⟩, made⟩ := of_bind_ok made
  obtain ⟨standards, copied, made⟩ := of_bind_ok made
  obtain ⟨proprietaries, copied', made⟩ := of_bind_ok made
  cases made
  simp only [fieldsHave_record, List.forall_mem_append, List.forall_mem_cons]
  exact ⟨⟨⟨⟨copied_other (by decide) _, copied_other (by decide) _, List.forall_mem_nil _⟩, copied_other (by decide) _,
    copied_own shown, List.forall_mem_nil _⟩, copied_made standard whole copied⟩, copied_made proprietary whole copied'⟩

theorem bitString_copied (governs : Governs shared tables) (named : draft.name = .text name)
    (configured : entry? shared "bit_string" name = some entry) (made : bitString tables draft first rest = .ok data) :
    FieldsHave (Copied entry ["proprietary"]) data := by
  obtain ⟨found, usable⟩ := governs.bitString name entry configured
  rw [bitString, named, entryFor_found found usable.holds] at made
  obtain ⟨fields, whole, proprietary⟩ := usable.parts
  obtain ⟨⟨minimum, length⟩, -, made⟩ := of_bind_ok made
  obtain ⟨bits, -, made⟩ := of_bind_ok made
  obtain ⟨_, ⟨⟩, made⟩ := of_bind_ok made
  dsimp only at made
  obtain ⟨maximum, -, made⟩ := of_bind_ok made
  obtain ⟨proprietaries, copied, made⟩ := of_bind_ok made
  cases made
  simp only [fieldsHave_record, List.forall_mem_append, List.forall_mem_cons]
  exact ⟨⟨⟨copied_other (by decide) _, copied_other (by decide) _, copied_other (by decide) _, List.forall_mem_nil _⟩,
    copied_other (by decide) _, List.forall_mem_nil _⟩, copied_made proprietary whole copied⟩

end

def markedNames : List String := ["range", "standard", "proprietary", "options", "fields"]

section
variable {shared : Marked Origin} {kind : Option Kind} {name : String} {markMembers : List Data → List (Marked Origin)}
  {data : Data}

theorem markWellKnown_data {table : String} {spans : List String}
    (each : ∀ entry, entry? shared table name = some entry → FieldsHave (Copied entry spans) data) :
    (markWellKnown shared table name spans data).data = data := by
  rw [markWellKnown]
  split
  next entry found => exact markCopies_data (each entry found)
  next => exact plain_data _

theorem markKind_unmarked (none : FieldsHave (fun key _ => ∀ name ∈ markedNames, key.same (.text name) = false) data) :
    (markKind shared kind name markMembers data).data = data := by
  have copies (entry : Marked Origin) {spans : List String} (known : spans ⊆ markedNames) :
      FieldsHave (Copied entry spans) data := by
    cases data with
    | object fields =>
      intro field listed name member same
      rw [none field listed name (known member)] at same
      cases same
    | _ => trivial
  have fields {name : String} (known : name ∈ markedNames) (mark : Data → Marked Origin) :
      FieldsHave (fun key value => key.same (.text name) = true → (mark value).data = value) data := by
    cases data with
    | object fields =>
      intro field listed same
      rw [none field listed name known] at same
      cases same
    | _ => trivial
  unfold markKind
  split
  · exact markWellKnown_data fun entry _ => copies entry (by decide)
  · exact markWellKnown_data fun entry _ => copies entry (by decide)
  · exact markField_data (fields (by decide) _)
  · exact markField_data (fields (by decide) _)
  · exact plain_data _

theorem markKind_members {base key : String} {list : List Data} {series : Data} {held : Kind} (complex : held.isSimple = false)
    (each : (markMembers list).map (·.data) = list) :
    (markKind shared (some held) name markMembers
        (withSeries series (.record [("base", .text base), (key, .array list)]))).data =
      withSeries series (.record [("base", .text base), (key, .array list)]) := by
  have fields {name : String} (base' : "base" ≠ name) (series' : "series" ≠ name) :
      FieldsHave (fun key value => key.same (.text name) = true → (markItems markMembers value).data = value)
        (withSeries series (.record [("base", .text base), (key, .array list)])) := by
    apply withSeries_have
    · rw [fieldsHave_record, List.forall_mem_cons, List.forall_mem_singleton]
      refine ⟨fun _ => plain_data _, fun _ => markItems_data ?_⟩
      rintro _ ⟨⟩
      exact each
    · intro value same
      exact absurd (beq_iff_eq.mp same) base'
    · intro value same
      exact absurd (beq_iff_eq.mp same) series'
  cases held with
  | enumerated | bitString => cases complex
  | choice => exact markField_data (fields (by decide) (by decide))
  | sequence => exact markField_data (fields (by decide) (by decide))
  | _ => exact plain_data _

end

section
variable {shared : Marked Origin} {tables : WellKnown}

theorem member_marked {entries : List (String × Data)} {mark : Data → Marked Origin}
    (own : ∀ entry ∈ entries, entry.1 = "type" → (mark entry.2).data = entry.2) :
    (markField "type" mark (.record entries)).data = .record entries := by
  apply markField_data
  rw [fieldsHave_record]
  intro entry listed same
  exact own entry listed (beq_iff_eq.mp same)

private theorem context_bears (number : Data) : ∀ entry ∈ context number, entry.1 = "context" := by
  unfold context
  split
  · split
    · exact List.forall_mem_singleton.mpr rfl
    · exact List.forall_mem_nil _
  · exact List.forall_mem_nil _

private theorem comment_bears (text : Data) : ∀ entry ∈ comment text, entry.1 = "comment" := by
  unfold comment
  split
  · exact List.forall_mem_singleton.mpr rfl
  · exact List.forall_mem_nil _

private theorem not_type {entries : List (String × Data)} (name : String) {mark : Data → Marked Origin}
    (bears : ∀ entry ∈ entries, entry.1 = name) (other : name ≠ "type") :
    ∀ entry ∈ entries, entry.1 = "type" → (mark entry.2).data = entry.2 := by
  intro entry listed same
  exact absurd ((bears entry listed).symm.trans same) other

private theorem memberEntry_marked (areFields : Bool) (item : Item) {type : Data} {mark : Data → Marked Origin}
    (own : (mark type).data = type) :
    (markField "type" mark (memberEntry areFields item type)).data = memberEntry areFields item type := by
  apply member_marked
  simp only [List.forall_mem_append, List.forall_mem_cons]
  refine ⟨⟨⟨⟨?_, ?_, fun _ => own, List.forall_mem_nil _⟩, not_type _ (context_bears _) (by decide)⟩, ?_⟩,
    not_type _ (comment_bears _) (by decide)⟩
  · exact fun same => absurd same (by decide)
  · exact fun same => absurd same (by decide)
  · refine not_type "optional" ?_ (by decide)
    split
    · exact List.forall_mem_singleton.mpr rfl
    · exact List.forall_mem_nil _

theorem markList_data {kind : Kind} {areFields : Bool} {items : List Item} {list : List Data} (complex : kind.isSimple = false)
    (each : ∀ item ∈ items, ItemFits plainRules kind item)
    (inner : ∀ name tag isOptional shape data, member name tag isOptional shape ∈ items → ShapeFits plainRules shape →
      type tables (member name tag isOptional shape).draft = .ok data →
      (markType shared (member name tag isOptional shape) data).data = data)
    (made : members tables areFields (Item.listDraft items) = .ok list) : (markList shared items list).map (·.data) = list := by
  have entries := @members_made _ _ _ _ _ _ (fun item data => (markType shared item data).data = data) complex each
    (fun name tag isOptional shape data inside _ => inner name tag isOptional shape data inside) made
  clear made inner each
  induction entries with
  | nil => rfl
  | cons first _ ih =>
    obtain ⟨-, -, own⟩ := first
    rw [markList, List.map_cons, ih, memberEntry_marked areFields _ own]

theorem markKind_data (governs : Governs shared tables) (shape : Shape) :
    ∀ draft name data, DraftOf draft name shape → ShapeFits plainRules shape → type tables draft = .ok data →
      (markKind shared (Kind.ofTypeName? shape.type) name (markMembers shared shape.items) data).data = data := by
  induction shape using nested_induction with
  | step shape ih =>
    intro draft name data drawn fits made
    obtain ⟨base, form, same⟩ := type_form drawn fits
    rw [same] at made
    obtain ⟨whole, based, made⟩ := of_bind_ok made
    cases made
    have bare {whole : Data} (none : FieldsHave (fun key _ => ∀ name ∈ markedNames, key.same (.text name) = false) whole) :
        (markKind shared (Kind.ofTypeName? shape.type) name (markMembers shared shape.items)
            (withSeries draft.series whole)).data =
          withSeries draft.series whole :=
      markKind_unmarked (withSeries_have none (fun _ => by decide) fun _ => by decide)
    cases form with
    | plain =>
      cases based
      exact bare trivial
    | limited given shown =>
      obtain ⟨minimum, -, based⟩ := of_bind_ok based
      obtain ⟨maximum, -, based⟩ := of_bind_ok based
      cases based
      apply bare
      simp only [fieldsHave_record, List.forall_mem_cons]
      exact ⟨by decide, by decide, by decide, List.forall_mem_nil _⟩
    | sized given shown =>
      obtain ⟨extent, -, based⟩ := of_bind_ok based
      cases based
      apply bare
      simp only [fieldsHave_record, List.forall_mem_cons]
      exact ⟨by decide, by decide, List.forall_mem_nil _⟩
    | bits kind listed =>
      rw [kind]
      apply markWellKnown_data
      intro entry configured
      exact withSeries_have (bitString_copied governs drawn.name configured based) (copied_other (by decide))
        (copied_other (by decide))
    | values kind listed =>
      rw [kind]
      apply markWellKnown_data
      intro entry configured
      exact withSeries_have (enumerated_copied governs drawn.name configured based) (copied_other (by decide))
        (copied_other (by decide))
    | @members base key areFields kind items other complex known listed _ each =>
      obtain ⟨list, listing, based⟩ := of_bind_ok based
      cases based
      rw [known]
      apply markKind_members complex
      cases found : shape.items with
      | none =>
        rw [found] at listed
        cases listed
        cases listing
        rfl
      | some own =>
        rw [found] at listed
        cases listed
        refine markList_data complex each ?_ listing
        intro name tag isOptional inner data inside fits typed
        exact ih inner ⟨found, inside⟩ _ name data (member_draft name tag isOptional inner) fits typed

/-- A record that was made is marked without being changed. -/
theorem markRecord_data (governs : Governs shared tables) {definition : Definition} (parsed : Parsed definition)
    {registry : Registry} {record : Data} (made : normalize (some registry) tables definition.draft = .ok (.made record)) :
    (markRecord shared definition record).data = record := by
  obtain ⟨name, -, made⟩ := of_bind_ok made
  dsimp only at made
  split at made
  next => cases made
  next =>
    obtain ⟨typed, own, made⟩ := of_bind_ok made
    cases made
    have fits : DefinitionFits plainRules definition := parsed.fits
    have kept := markKind_data governs definition.toShape _ _ typed (definition_draft definition) fits.shape own
    apply member_marked
    simp only [List.forall_mem_append, List.forall_mem_cons]
    refine ⟨⟨⟨⟨?_, ?_, List.forall_mem_nil _⟩, ?_⟩, not_type _ (comment_bears _) (by decide)⟩, fun _ => kept,
      List.forall_mem_nil _⟩
    · exact fun same => absurd same (by decide)
    · exact fun same => absurd same (by decide)
    · refine not_type "primitive" ?_ (by decide)
      split
      · exact List.forall_mem_nil _
      · exact List.forall_mem_singleton.mpr rfl

end

section
open Registry

theorem addAll_placed {index : Index} {registry made : Registry} {before records : List Data}
    (placed : ∀ row ∈ index.table registry, before[row.2.index]? = some row.2.record)
    (added : registry.addAll before.length records = .ok made) :
    ∀ row ∈ index.table made, (before ++ records)[row.2.index]? = some row.2.record := by
  induction records generalizing registry before with
  | nil =>
    cases added
    rwa [List.append_nil]
  | cons record records ih =>
    obtain ⟨middle, first, rest⟩ := addAll_cons added
    obtain ⟨held, -, put⟩ := @add_ok index _ _ _ first
    have next := @ih middle (before ++ [record]) ?_ (by rwa [List.length_append])
    · rwa [List.append_assoc] at next
    · intro row member
      rw [put] at member
      rcases (mem_put member).2 with new | old
      · rw [new, List.getElem?_concat_length]
      · have held := placed row old
        rw [List.getElem?_append_left (List.getElem?_eq_some_iff.mp held).1, held]

/-- An entry of a registry tells the place that its record has among those the registry was made of. -/
theorem placed_entry {records : List Data} {registry : Registry} (built : ofRecords records = .ok registry) {key : Key}
    {entry : Entry} (found : registry.get? key = some entry) : records[entry.index]? = some entry.record := by
  have placed (index : Index) (held : (index.table registry).get? key = some entry) :
      records[entry.index]? = some entry.record := by
    obtain ⟨row, first, rfl⟩ := Option.map_eq_some_iff.mp held
    have start : ∀ row ∈ index.table Registry.empty, ([] : List Data)[row.2.index]? = some row.2.record := by
      cases index <;> exact List.forall_mem_nil _
    exact addAll_placed start built row (List.mem_of_find?_eq_some first)
  rw [Registry.get?, Option.or_eq_some_iff] at found
  rcases found with first | ⟨-, second⟩
  · exact placed .byAlias first
  · exact placed .byName second

theorem found_entry {registry : Registry} {tables : WellKnown} {draft : Draft} {entry : Entry}
    (made : normalize (some registry) tables draft = .ok (.found entry)) : ∃ key, registry.get? key = some entry := by
  obtain ⟨name, -, made⟩ := of_bind_ok made
  dsimp only at made
  split at made
  next held =>
    cases made
    rw [Option.bind_some, Option.or_eq_some_iff] at held
    rcases held with first | ⟨-, second⟩
    · obtain ⟨looked, -⟩ := Option.filter_eq_some_iff.mp first
      obtain ⟨key, -, found⟩ := Option.bind_eq_some_iff.mp looked
      exact ⟨key, found⟩
    · exact ⟨_, second⟩
  next =>
    obtain ⟨typed, -, made⟩ := of_bind_ok made
    cases made

end

/-- The records of definitions, if each of them has one. -/
def recordsOf (registry : Registry) (tables : WellKnown) (definitions : List Definition) : Except Failure (List Data) :=
  match normalizeAll (some registry) tables (definitions.map (·.draft)) with
  | (_, some failure) => .error failure
  | (results, none) => .ok (results.map (·.data))

section
variable {records : List (Marked Nat)} {configuration : Marked Nat} {registry : Registry} {tables : WellKnown}
  {shared : Marked Origin} {definitions : List Definition} {items : List (Marked Origin)}

/-- A record with its marks, made for a definition or found in the registry, is the record that normalization gives. -/
theorem marked_data (governs : Governs shared tables) (built : Registry.ofRecords (records.map (·.view)) = .ok registry)
    {definition : Definition} (parsed : Parsed definition) {result : Normalized}
    (made : normalize (some registry) tables definition.draft = .ok result) :
    (marked records shared definition result).data = result.data := by
  cases result with
  | made record => exact markRecord_data governs parsed made
  | found entry =>
    obtain ⟨key, found⟩ := found_entry made
    have placed := placed_entry built found
    rw [List.getElem?_map, Option.map_eq_some_iff] at placed
    obtain ⟨record, held, same⟩ := placed
    have apart : (Origin.record entry.index).Injective := by
      rintro _ _ ⟨⟩
      rfl
    rw [marked, held]
    dsimp only
    rw [expanded_data, map_view apart]
    exact same

/-- What the records of definitions are, without their marks, are the records that normalization gives. -/
theorem normalized_data (governs : Governs (configuration.map .configuration).expanded tables)
    (built : Registry.ofRecords (records.map (·.view)) = .ok registry)
    (parsed : ∀ definition ∈ definitions, Parsed definition) :
    match recordsOf registry tables definitions with
    | .error failure => normalized records configuration registry tables definitions = .error failure
    | .ok list => ∃ items, normalized records configuration registry tables definitions = .ok items ∧
        items.map (·.data) = list := by
  unfold normalized recordsOf
  cases all : normalizeAll (some registry) tables (definitions.map (·.draft)) with
  | mk results failure =>
    cases failure with
    | some failure => rfl
    | none =>
      refine ⟨_, rfl, ?_⟩
      have each := List.forall₂_map_left_iff.mp (normalizeAll_ok_iff.mp all)
      clear all
      induction each with
      | nil => rfl
      | cons made _ ih =>
        obtain ⟨own, others⟩ := List.forall_mem_cons.mp parsed
        rw [List.zipWith_cons_cons, List.map_cons, List.map_cons, ih others, marked_data governs built own made]

end

section
variable {shared : Marked Origin} {configuration : Marked Nat} {tables : WellKnown} {entry : Marked Origin}

theorem Distinct.find {data value : Data} {name : String} (distinct : Distinct data) (found : data.find? name = some value) :
    Distinct value := by
  cases data with
  | object fields =>
    obtain ⟨field, listed, rfl⟩ := field_of_find found
    exact distinct.fields.2 field listed
  | _ => cases found

theorem object_of_find {data value : Data} {name : String} (found : data.find? name = some value) :
    ∃ fields : Fields, data = .object fields ∧ fields.find? name = some value := by
  cases data with
  | object fields => exact ⟨fields, rfl, found⟩
  | _ => cases found

/-- An entry of a marked configuration is in a table of the configuration, in which no name stands twice. -/
theorem entry_listed {table name : String} (distinct : Distinct shared.data)
    (configured : entry? shared table name = some entry) :
    ∃ inner entries : Fields, shared.data.find? "well_known" = some (.object inner) ∧
      inner.find? table = some (.object entries) ∧ KeysApart entries ∧ entries.find? name = some entry.data := by
  obtain ⟨listing, first, held⟩ := Option.bind_eq_some_iff.mp configured
  obtain ⟨known, second, third⟩ := Option.bind_eq_some_iff.mp first
  have known' : shared.data.find? "well_known" = some known.data := by rw [find_data, second]; rfl
  have listing' : known.data.find? table = some listing.data := by rw [find_data, third]; rfl
  have entry' : listing.data.find? name = some entry.data := by rw [find_data, held]; rfl
  have apart := (distinct.find known').find listing'
  obtain ⟨inner, whole, found⟩ := object_of_find listing'
  obtain ⟨entries, whole', found'⟩ := object_of_find entry'
  rw [whole'] at found apart
  exact ⟨inner, entries, whole ▸ known', found, apart.fields.1, found'⟩

theorem ofData_tables {inner : Fields} (read : WellKnown.ofData (.object inner) = .ok tables) :
    ((Fields.find? inner "enumerated").getD (.object [])).toFields = .ok tables.enumerated ∧
      ((Fields.find? inner "bit_string").getD (.object [])).toFields = .ok tables.bitString := by
  obtain ⟨first, enumerated, read⟩ := of_bind_ok read
  obtain ⟨second, bitString, same⟩ := of_bind_ok read
  cases same
  exact ⟨enumerated, bitString⟩

theorem merged_find {base override : Fields} {name : String} {value : Data} (apart : KeysApart override)
    (found : override.find? name = some value) : (Fields.merge base override).find? name = some value := by
  rw [Fields.find?, merge_get apart]
  rw [Fields.find?] at found
  rw [found]
  rfl

/-- The entry of a marked configuration stands in the table that is read from the configuration, also when that is put
over another one. -/
theorem entry_governed {table name : String} {base list : Fields} {holds : Data → Prop} (distinct : Distinct shared.data)
    (read : ∀ inner : Fields, shared.data.find? "well_known" = some (.object inner) →
      ((inner.find? table).getD (.object [])).toFields = .ok list)
    (each : ∀ field ∈ list, holds field.2) (configured : entry? shared table name = some entry) :
    (Fields.merge base list).find? name = some entry.data ∧ holds entry.data := by
  obtain ⟨inner, entries, known, listing, apart, held⟩ := entry_listed distinct configured
  have same := read inner known
  rw [listing] at same
  cases same
  obtain ⟨field, listed, same⟩ := field_of_find held
  exact ⟨merged_find apart held, same ▸ each field listed⟩

/-- The tables of a valid configuration, put over those of the standard, have its entries. -/
theorem configuration_governs (valid : Standard.repository.validate Standard.configurationId configuration.view = .ok ())
    (distinct : DistinctMarked configuration) :
    ∃ tables, tablesOf configuration.view = .ok tables ∧ Governs (configuration.map .configuration).expanded tables := by
  have apart : Origin.configuration.Injective := by
    rintro _ _ ⟨⟩
    rfl
  have shown : (configuration.map Origin.configuration).expanded.data = configuration.view := by
    rw [expanded_data, map_view apart]
  have own : Distinct (configuration.map Origin.configuration).expanded.data := shown ▸ view_distinct distinct
  obtain ⟨fields, tables, whole, read, enumerated, bitString⟩ := configuration_tables valid
  have found : configuration.view.find? "well_known" = fields.find? "well_known" := by rw [whole]; rfl
  have known (inner : Fields) (held : (configuration.map Origin.configuration).expanded.data.find? "well_known" =
      some (.object inner)) : WellKnown.ofData (.object inner) = .ok tables := by
    rw [shown, found] at held
    rwa [held, Option.getD_some] at read
  refine ⟨WellKnown.standard.merge tables, by rw [tablesOf, found, read]; rfl, ?_, ?_⟩
  · exact fun name entry => entry_governed own (fun inner held => (ofData_tables (known inner held)).1) enumerated
  · exact fun name entry => entry_governed own (fun inner held => (ofData_tables (known inner held)).2) bitString

end

end TypeCatalog.Proofs
