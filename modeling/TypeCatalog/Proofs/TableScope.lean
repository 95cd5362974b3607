import TypeCatalog.Proofs.ObjectFields
import TypeCatalog.Proofs.TypeForms

/-! The reach of tables of well known types. A record depends on them only through the entry that the definition has
under its own name in the table of its kind: names of items are never keys, so no type inside of a definition has an
entry. Where one pair of tables is put over another, entries are replaced as a whole. -/

namespace TypeCatalog.Proofs
open TypeCatalog.Normal Source

/-- Whether a key can be the name of a definition. -/
def isDefinitionKey : Key → Bool
  | .text name => isTypeName name.toList
  | _ => false

/-- A table is keyed by names of definitions, with one entry for each. -/
structure Keyed (table : Fields) : Prop where
  named : ∀ field ∈ table, isDefinitionKey field.1 = true
  apart : table.Pairwise fun first second => first.1.same second.1 = false

structure KeyedTables (tables : WellKnown) : Prop where
  enumerated : Keyed tables.enumerated
  bitString : Keyed tables.bitString

/-- What tables have for a name, by the kind of the type that bears it. -/
def entryOf? (tables : WellKnown) (kind : Option Kind) (name : String) : Option Data :=
  match kind with
  | some .enumerated => tables.enumerated.find? name
  | some .bitString => tables.bitString.find? name
  | _ => none

/-- Tables that have nothing under the names of items. -/
def ItemFree (tables : WellKnown) : Prop :=
  ∀ kind name, isItemName name.toList = true → entryOf? tables kind name = none

section
variable {name : String} {table : Fields} {base override tables other : WellKnown}

theorem isTypeName_of_item (proper : isItemName name.toList = true) : isTypeName name.toList = false := by
  cases characters : name.toList with
  | nil => rfl
  | cons c rest =>
    rw [characters, isItemName, Bool.and_eq_true] at proper
    rw [isTypeName, Bool.eq_false_iff.mpr (Char.not_isUpper_of_isLower proper.1), Bool.false_and]

theorem Keyed.itemFree (keyed : Keyed table) (proper : isItemName name.toList = true) : table.find? name = none := by
  rw [Fields.find?, Fields.get?, Option.map_eq_none_iff, List.find?_eq_none]
  intro field listed same
  have known := keyed.named field listed
  obtain ⟨key, value⟩ := field
  cases key with
  | text own =>
    have equal : own = name := beq_iff_eq.mp same
    rw [isDefinitionKey, equal, isTypeName_of_item proper] at known
    cases known
  | null | bool | int | real => cases known

theorem KeyedTables.itemFree (keyed : KeyedTables tables) : ItemFree tables := by
  intro kind name proper
  rw [entryOf?.eq_def]
  split
  · exact keyed.enumerated.itemFree proper
  · exact keyed.bitString.itemFree proper
  · rfl

theorem entryOf_merge (keyed : KeyedTables override) (kind : Option Kind) (name : String) :
    entryOf? (base.merge override) kind name = (entryOf? override kind name).or (entryOf? base kind name) := by
  rw [entryOf?.eq_def, entryOf?.eq_def, entryOf?.eq_def]
  split
  · exact merge_get keyed.enumerated.apart
  · exact merge_get keyed.bitString.apart
  · rfl

theorem itemFree_merge (free : ItemFree base) (keyed : KeyedTables override) : ItemFree (base.merge override) := by
  intro kind name proper
  rw [entryOf_merge keyed, keyed.itemFree kind name proper, free kind name proper]
  rfl

theorem entryFor_congr {first second : Fields} (same : first.find? name = second.find? name) :
    entryFor first (.text name) = entryFor second (.text name) := by
  change Except.ok ((first.find? name).filter Data.holds) = Except.ok ((second.find? name).filter Data.holds)
  rw [same]

end

section
variable {rules : Rules} {tables other : WellKnown} {shape : Shape}

private theorem members_tables {kind : Kind} {items : List Item} {areFields : Bool} (free : ItemFree tables)
    (freeOther : ItemFree other) (complex : kind.isSimple = false) (each : ∀ item ∈ items, ItemFits rules kind item)
    (inner : ∀ name tag isOptional shape, member name tag isOptional shape ∈ items → ShapeFits rules shape →
      (∀ kind, entryOf? tables kind name = entryOf? other kind name) →
        type tables (member name tag isOptional shape).draft = type other (member name tag isOptional shape).draft) :
    members tables areFields (Item.listDraft items) = members other areFields (Item.listDraft items) := by
  induction items with
  | nil => rfl
  | cons item rest ih =>
    obtain ⟨name, tag, isOptional, shape, rfl, proper, -, fits⟩ :=
      (each item List.mem_cons_self).member_of_complex complex
    have same : ∀ kind, entryOf? tables kind name = entryOf? other kind name := by
      intro kind
      rw [free kind name proper, freeOther kind name proper]
    have others := ih (fun item later => each item (List.mem_cons_of_mem _ later))
      fun name tag isOptional shape later => inner name tag isOptional shape (List.mem_cons_of_mem _ later)
    rw [Item.listDraft, members, members, inner name tag isOptional shape List.mem_cons_self fits same, others]

/-- A type depends on tables only through the entry of its kind under its own name. -/
theorem type_tables (free : ItemFree tables) (freeOther : ItemFree other) (shape : Shape) :
    ∀ draft name, DraftOf draft name shape → ShapeFits rules shape →
      entryOf? tables (Kind.ofTypeName? shape.type) name = entryOf? other (Kind.ofTypeName? shape.type) name →
        type tables draft = type other draft := by
  induction shape using nested_induction with
  | step shape ih =>
    intro draft name drawn fits same
    obtain ⟨base, form, made⟩ := type_form drawn fits
    rw [made, made]
    congr 1
    cases form with
    | plain | limited | sized => rfl
    | bits kind =>
      rw [kind] at same
      simp only [bitString, drawn.name, entryFor_congr same]
    | values kind =>
      rw [kind] at same
      simp only [enumerated, drawn.name, entryFor_congr same]
    | members base key areFields other complex known listed bare each =>
      dsimp only
      rw [members_tables free freeOther complex each]
      intro inner tag isOptional nested inside fits same
      exact ih nested (inside_of_listed listed inside) _ inner (member_draft inner tag isOptional nested) fits (same _)

end

section
variable {base override tables other : WellKnown} {definition : Definition}

private theorem normalize_tables (free : ItemFree tables) (freeOther : ItemFree other) (parsed : Parsed definition)
    (same : entryOf? tables (Kind.ofTypeName? definition.type) definition.name =
      entryOf? other (Kind.ofTypeName? definition.type) definition.name) :
    normalize none tables definition.draft = normalize none other definition.draft := by
  have fits : DefinitionFits plainRules definition := parsed.fits
  have types := type_tables free freeOther definition.toShape definition.draft definition.name
    (definition_draft definition) fits.shape same
  rw [Normal.normalize, Normal.normalize, types]

/-- The tables that are put over others decide about a definition if they have an entry for it, and else the others do.
The type of an item is the same whatever the tables are. -/
theorem normalize_scope (parsed : Parsed definition) (keyed : KeyedTables base) (keyedOver : KeyedTables override) :
    normalize none (base.merge override) definition.draft =
        (if (entryOf? override (Kind.ofTypeName? definition.type) definition.name).isSome then
          normalize none override definition.draft
        else normalize none base definition.draft) ∧
      ∀ shape, TypeIn shape definition.toShape → ∀ item ∈ shape.items.getD [],
        type base item.draft = type override item.draft := by
  have free := keyed.itemFree
  have freeOver := keyedOver.itemFree
  have merged := @entryOf_merge base override keyedOver (Kind.ofTypeName? definition.type) definition.name
  constructor
  · split
    next known =>
      apply normalize_tables (itemFree_merge free keyedOver) freeOver parsed
      rw [merged, Option.or_of_isSome known]
    next unknown =>
      apply normalize_tables (itemFree_merge free keyedOver) free parsed
      rw [merged, Option.not_isSome_iff_eq_none.mp unknown, Option.none_or]
  · intro shape within item listed
    have fits : DefinitionFits plainRules definition := parsed.fits
    cases items : shape.items with
    | none =>
      rw [items] at listed
      cases listed
    | some list =>
      rw [items] at listed
      obtain ⟨kind, -, -, -, each⟩ := (fits.shape.typeIn within).listed items
      cases each item listed with
      | value => rfl
      | @typed _ name tag isOptional inner _ proper _ shaped =>
        apply type_tables free freeOver inner _ name (member_draft name tag isOptional inner) shaped
        rw [free _ name proper, freeOver _ name proper]

end

theorem standard_keyed : KeyedTables .standard :=
  ⟨⟨by decide, by decide⟩, by decide, by decide⟩

private def wideFlags : WellKnown := ⟨[], [(.text "Flags", .record [("maximum", .int 8)])]⟩

/-- An entry counts for the bit string with its name, and neither for another definition nor for a bit string inside. -/
theorem normalize_scope_flags : ∃ flags zone,
    parse "Flags ::= BIT STRING \x7b on (0) \x7d Zone ::= SEQUENCE \x7b flags [0] BIT STRING \x7b on (0) \x7d \x7d" =
      .ok [flags, zone] ∧
    normalize none (WellKnown.standard.merge wideFlags) flags.draft = normalize none wideFlags flags.draft ∧
    normalize none (WellKnown.standard.merge wideFlags) zone.draft = normalize none .standard zone.draft ∧
    ∀ shape, TypeIn shape zone.toShape → ∀ item ∈ shape.items.getD [],
      type .standard item.draft = type wideFlags item.draft := by
  obtain ⟨flags, zone, accepted, own, other⟩ : ∃ flags zone,
      parse "Flags ::= BIT STRING \x7b on (0) \x7d Zone ::= SEQUENCE \x7b flags [0] BIT STRING \x7b on (0) \x7d \x7d" =
        .ok [flags, zone] ∧ (entryOf? wideFlags (Kind.ofTypeName? flags.type) flags.name).isSome = true ∧
        (entryOf? wideFlags (Kind.ofTypeName? zone.type) zone.name).isSome = false := ⟨_, _, by cbv, rfl, rfl⟩
  have keyed : KeyedTables wideFlags := ⟨⟨by decide, by decide⟩, by decide, by decide⟩
  have first := @normalize_scope _ _ flags ⟨_, _, accepted, by simp⟩ standard_keyed keyed
  have second := @normalize_scope _ _ zone ⟨_, _, accepted, by simp⟩ standard_keyed keyed
  rw [own, if_pos rfl] at first
  rw [other, if_neg (by decide)] at second
  exact ⟨flags, zone, accepted, first.1, second.1, second.2⟩

end TypeCatalog.Proofs
