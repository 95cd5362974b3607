import TypeCatalog.Proofs.NameWords
import TypeCatalog.Proofs.NumberedItems

/-! Names that stay as they are. What a name of a type is converted to is not changed by another conversion, and names of
items are not changed by any, so at every depth of a record an item is listed with one and the same text as its alias and
as its name. -/

namespace TypeCatalog.Proofs
open Name Source TypeCatalog.Normal

def listKeys : List String := ["bits", "values", "options", "fields"]

/-- An entry is listed in a type, or in the type of another entry that is. -/
inductive EntryIn (entry : Data) : Data → Prop where
  | listed {type : Data} {key : String} {list : List Data} (lists : key ∈ listKeys)
      (found : type.find? key = some (.array list)) (member : entry ∈ list) : EntryIn entry type
  | inside {type outer inner : Data} {key : String} {list : List Data} (lists : key ∈ listKeys)
      (found : type.find? key = some (.array list)) (member : outer ∈ list) (typed : outer.find? "type" = some inner)
      (within : EntryIn entry inner) : EntryIn entry type

def SelfNamed (entry : Data) : Prop :=
  ∃ name, entry.find? "alias" = some (.text name) ∧ entry.find? "name" = some (.text name)

/-- All entries in a type, at every depth, have the same text as their alias and as their name. -/
def AllSelfNamed (type : Data) : Prop := ∀ entry, EntryIn entry type → SelfNamed entry

def DeeplySelfNamed (entry : Data) : Prop :=
  SelfNamed entry ∧ ∀ type, entry.find? "type" = some type → AllSelfNamed type

def OnlyList (list : List Data) (fields : List (String × Data)) : Prop :=
  ∀ field ∈ fields, field.1 ∈ listKeys → field.2 = .array list

section
variable {series : Data} {list : List Data} {fields : List (String × Data)}

/-- The entries of a record are those of its only list, and those in the types of these. -/
theorem allSelfNamed_record (only : OnlyList list fields) (each : ∀ entry ∈ list, DeeplySelfNamed entry) :
    AllSelfNamed (withSeries series (.record fields)) := by
  have same {key : String} {items : List Data} (lists : key ∈ listKeys)
      (found : (withSeries series (.record fields)).find? key = some (.array items)) : items = list := by
    have other : key ≠ "series" := by
      rintro rfl
      exact absurd lists (by decide)
    rw [withSeries_find series fields other] at found
    obtain ⟨before, after, rfl, -⟩ := List.lookup_eq_some_iff.mp found
    cases only (key, .array items) (List.mem_append_right before List.mem_cons_self) lists
    rfl
  intro entry within
  cases within with
  | listed lists found member =>
    rw [same lists found] at member
    exact (each entry member).1
  | inside lists found member typed within =>
    rw [same lists found] at member
    exact (each _ member).2 _ typed entry within

theorem allSelfNamed_bare (bare : OnlyList [] fields) : AllSelfNamed (withSeries series (.record fields)) :=
  allSelfNamed_record bare (List.forall_mem_nil _)

theorem allSelfNamed_text (series : Data) (text : String) : AllSelfNamed (withSeries series (.text text)) := by
  have nothing : ∀ key ∈ listKeys, (withSeries series (.text text)).find? key = none := by
    intro key lists
    rw [withSeries.eq_def]
    split
    · rfl
    · change Fields.find? (named [("base", .text text), ("series", series)]) key = none
      have other : ∀ key ∈ listKeys, key ∉ ["base", "series"] := by decide
      rw [find_named]
      exact lookup_new (other key lists)
  intro entry within
  cases within with
  | listed lists found | inside lists found =>
    rw [nothing _ lists] at found
    cases found

end

theorem ofItem_proper {name : String} (proper : isItemName name.toList = true) : ofItem name = name := by
  rw [ofItem, convert_catalogueName .keep (itemName_catalogueName proper), String.ofList_toList]

theorem numberedEntry_selfNamed {item : Item} (key : String) (proper : isItemName item.name.toList = true) :
    SelfNamed (numberedEntry key item) := by
  refine ⟨item.name, rfl, ?_⟩
  rw [numberedEntry, ofItem_proper proper]
  rfl

theorem memberEntry_selfNamed {item : Item} {areFields : Bool} (type : Data) (proper : isItemName item.name.toList = true) :
    SelfNamed (memberEntry areFields item type) := by
  refine ⟨item.name, rfl, ?_⟩
  rw [memberEntry, ofItem_proper proper]
  rfl

section
variable {table : Fields} {draft : Draft} {name : String} {extensible : Bool} {items : List Item} {list : List Data}
  {data : Data} {low high : Int}

theorem OnlyList.append {first second : List (String × Data)} (one : OnlyList list first)
    (other : ∀ key ∈ second.map (·.1), key ∉ listKeys) : OnlyList list (first ++ second) := by
  intro field member lists
  rcases List.mem_append.mp member with before | behind
  · exact one field before lists
  · exact absurd lists (other field.1 (List.mem_map_of_mem behind))

theorem copied_apart {entry : Data} {more : List (String × Data)} (made : copied name entry = .ok more)
    (other : name ∉ listKeys) : ∀ key ∈ more.map (·.1), key ∉ listKeys := by
  intro key member
  rwa [List.mem_singleton.mp (copied_keys made member)]

theorem BitStringRecord.only (record : BitStringRecord table name extensible (.array list) high data) :
    ∃ fields, data = .record fields ∧ OnlyList list fields := by
  cases record with
  | own => exact ⟨_, rfl, by simp [OnlyList, listKeys]⟩
  | known _ _ copies => exact ⟨_, rfl, .append (by simp [OnlyList, listKeys]) (copied_apart copies (by decide))⟩

theorem EnumeratedRecord.only
    (record : EnumeratedRecord table draft name extensible items (.array list) low high data) :
    ∃ fields, data = .record fields ∧ OnlyList list fields := by
  cases record with
  | closed => exact ⟨_, rfl, by simp [OnlyList, listKeys]⟩
  | @opened spans =>
    refine ⟨_, rfl, .append (by simp [OnlyList, listKeys]) ?_⟩
    cases spans <;> simp [spanFields, listKeys]
  | known _ _ _ first second =>
    refine ⟨_, rfl, .append (.append ?_ (copied_apart first (by decide))) (copied_apart second (by decide))⟩
    simp [OnlyList, listKeys]

end

section
variable {rules : Rules} {kind : Kind} {items : List Item} {list : List Data}

theorem numbered_selfNamed {sorted : List Item} (key : String) (other : key ≠ "type") (simple : kind.isComplex = false)
    (each : ∀ item ∈ items, ItemFits rules kind item) (arranged : Arranged place items sorted) :
    ∀ entry ∈ sorted.map (numberedEntry key), DeeplySelfNamed entry := by
  rw [List.forall_mem_map]
  intro item member
  obtain ⟨name, number, comment, rfl, proper, -⟩ := (each item (arranged.perm.subset member)).value_of_simple simple
  refine ⟨numberedEntry_selfNamed key proper, ?_⟩
  intro type typed
  have untyped : (numberedEntry key { name, number := some number, comment }).find? "type" = none := by
    change Fields.find? (named _) "type" = none
    rw [find_named]
    exact lookup_new (by simp [other.symm])
  rw [untyped] at typed
  cases typed

theorem members_selfNamed {tables : WellKnown} {areFields : Bool} (complex : kind.isSimple = false)
    (each : ∀ item ∈ items, ItemFits rules kind item)
    (inner : ∀ name tag isOptional shape data, member name tag isOptional shape ∈ items → ShapeFits rules shape →
      type tables (member name tag isOptional shape).draft = .ok data → AllSelfNamed data)
    (made : members tables areFields (Item.listDraft items) = .ok list) :
    ∀ entry ∈ list, DeeplySelfNamed entry := by
  have entries := @members_made _ _ _ _ _ _
    (fun item data => isItemName item.name.toList = true ∧ AllSelfNamed data) complex each
    (fun name tag isOptional shape data inside proper fits typed =>
      ⟨proper, inner name tag isOptional shape data inside fits typed⟩) made
  clear made inner each
  induction entries with
  | nil => exact List.forall_mem_nil _
  | cons first _ ih =>
    obtain ⟨-, -, proper, own⟩ := first
    refine List.forall_mem_cons.mpr ⟨⟨memberEntry_selfNamed _ proper, ?_⟩, ih⟩
    intro type typed
    cases typed
    exact own

end

section
variable {rules : Rules} {tables : WellKnown}

/-- The entries in the type of a draft have the same text as their alias and as their name, whatever the tables are. -/
theorem type_selfNamed (shape : Shape) : ∀ draft name data, DraftOf draft name shape → ShapeFits rules shape →
    type tables draft = .ok data → AllSelfNamed data := by
  induction shape using nested_induction with
  | step shape ih =>
    intro draft name data drawn fits made
    obtain ⟨base, form, same⟩ := type_form drawn fits
    rw [same] at made
    obtain ⟨bare, known, result⟩ := of_bind_ok made
    cases result
    cases form with
    | plain =>
      cases known
      exact allSelfNamed_text _ _
    | limited =>
      obtain ⟨_, -, known⟩ := of_bind_ok known
      obtain ⟨_, -, known⟩ := of_bind_ok known
      cases known
      exact allSelfNamed_bare (by simp [OnlyList, listKeys])
    | sized =>
      obtain ⟨_, -, known⟩ := of_bind_ok known
      cases known
      exact allSelfNamed_bare (by simp [OnlyList, listKeys])
    | bits kind listed _ each =>
      obtain ⟨sorted, _, _, arranged, -, -, record⟩ := bitString_record drawn.toCarries (numbered_of_simple rfl each) known
      obtain ⟨fields, rfl, only⟩ := record.only
      exact allSelfNamed_record only (numbered_selfNamed "position" (by decide) rfl each arranged)
    | values kind listed _ each =>
      obtain ⟨sorted, _, _, arranged, -, -, record⟩ := enumerated_record drawn.toCarries (numbered_of_simple rfl each) known
      obtain ⟨fields, rfl, only⟩ := record.only
      exact allSelfNamed_record only (numbered_selfNamed "constant" (by decide) rfl each arranged)
    | members base key areFields other complex kind listed _ each called =>
      obtain ⟨list, entries, known⟩ := of_bind_ok known
      cases known
      have named := members_selfNamed complex each
        (fun name tag isOptional inner data inside fits typed =>
          ih inner (inside_of_listed listed inside) _ name data (member_draft name tag isOptional inner) fits typed) entries
      exact allSelfNamed_record (by simp [OnlyList, listKeys]) named

end

/-- A name that every value for the word in front leaves as it is, but for numbers that cannot be written. -/
def Stays (name : String) : Prop :=
  ∀ value lead, Asks value lead →
    ofData value (.text name) = if value.isWritable then .ok name else .error .tooManyDigits

theorem stays_of_convert {name : String} (same : ∀ lead, convert lead name.toList = name.toList) : Stays name := by
  intro value lead asks
  rw [ofData_asks asks, same, String.ofList_toList]

/-- A name of a type without the word in front is a name in the catalogue, unless it is that word alone. It has the letters
and digits that the name had, and no conversion changes it again. Names of items are not changed at all, and so the records
of definitions of accepted texts list all of their items under one and the same text as alias and as name. -/
theorem names_settled :
    (∀ name : String, isTypeName name.toList = true →
      ∃ made, ofData (.bool false) (.text name) = .ok made ∧ (made = "" ↔ name = "BACnet") ∧
        (name ≠ "BACnet" → isCatalogueName made.toList = true) ∧
        made.toList.filter (· != '-') = ((unbranded name.toList).filter (· != '-')).map Char.toLower ∧ Stays made) ∧
    (∀ name : String, isItemName name.toList = true → Stays name) ∧
    ∀ registry tables definition record, Parsed definition →
      normalize registry tables definition.draft = .ok (.made record) →
        ∃ type, record.find? "type" = some type ∧ AllSelfNamed type := by
  refine ⟨?_, ?_, ?_⟩
  · intro name proper
    refine ⟨ofType name, rfl, ofType_empty proper, ofType_words proper, ofType_letters proper, ?_⟩
    apply stays_of_convert
    intro lead
    by_cases word : name = "BACnet"
    · rw [(ofType_empty proper).mpr word]
      exact convert_small lead (List.forall_mem_nil _) (List.forall_mem_nil _)
    · exact convert_catalogueName lead (ofType_words proper word)
  · intro name proper
    exact stays_of_convert fun lead => convert_catalogueName lead (itemName_catalogueName proper)
  · intro registry tables definition record parsed normalized
    have fits : DefinitionFits plainRules definition := parsed.fits
    rcases normalize_source normalized with ⟨key, entry, -, found⟩ | ⟨made, -⟩
    · cases found
    · obtain ⟨type, typed, found⟩ := normalize_type made
      exact ⟨type, found, type_selfNamed definition.toShape _ _ type (definition_draft definition) fits.shape typed⟩

/-- Names with hyphens of their own and with digits, and a value in a member. -/
theorem names_settled_nested : Stays "a-bc-d-1" ∧ Stays "dec-vt220" ∧ ∃ (definition : Definition) (record type : Data),
    parse "BACnetShape ::= SEQUENCE \x7b dec-vt220 ENUMERATED \x7b my-16 (0) \x7d \x7d" = .ok [definition] ∧
    normalize none .standard definition.draft = .ok (.made record) ∧ record.find? "type" = some type ∧
    EntryIn (numberedEntry "constant" { name := "my-16", number := some 0 }) type ∧ AllSelfNamed type := by
  obtain ⟨types, items, records⟩ := names_settled
  obtain ⟨made, converted, -, -, -, stays⟩ := types "BACnet-ABcD1" (by decide)
  cases converted
  obtain ⟨definition, record, type, accepted, normalized, found, within⟩ : ∃ (definition : Definition) (record type : Data),
      parse "BACnetShape ::= SEQUENCE \x7b dec-vt220 ENUMERATED \x7b my-16 (0) \x7d \x7d" = .ok [definition] ∧
      normalize none .standard definition.draft = .ok (.made record) ∧ record.find? "type" = some type ∧
      EntryIn (numberedEntry "constant" { name := "my-16", number := some 0 }) type := by
    refine ⟨_, _, _, by cbv, by rfl, by rfl, ?_⟩
    apply @EntryIn.inside _ _ _ _ "fields" _ (by decide) (by rfl) (List.mem_singleton_self _) (by rfl)
    exact @EntryIn.listed _ _ "values" _ (by decide) (by rfl) (List.mem_singleton_self _)
  obtain ⟨other, same, named⟩ := records none .standard definition record ⟨_, _, accepted, List.mem_singleton_self _⟩ normalized
  cases found.symm.trans same
  exact ⟨stays, items "dec-vt220" (by decide), definition, record, type, accepted, normalized, found, within, named⟩

/-- A number with too many digits is refused, though the name is one of an item. -/
theorem itemName_unwritten : isItemName "a".toList = true ∧
    ofData (.int (Nat.pow 10 digitLimit)) (.text "a") = .error .tooManyDigits := by
  refine ⟨by decide, ?_⟩
  rw [ofData_asks (.number _), unwritten_limit]
  rfl

end TypeCatalog.Proofs
