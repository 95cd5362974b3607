import Mathlib.Data.List.Nodup
import TypeCatalog.Definition.Draft
import TypeCatalog.Proofs.ObjectFields

/-! Definitions come back from their data. Data leaves out what is null or false, and reading puts the default of a field
in its place; so a draft survives if what is left out of it are defaults of its role. Definitions are such drafts, and so
are their items at every depth. -/

namespace TypeCatalog.Proofs
open Draft

private def isStructured (name : String) : Bool := name == "size" || name == "range" || name == "items"

private def slotsOf (entries : List (String × Data)) : Slots where
  plain := named (entries.filter (!isStructured ·.1))
  size := (entries.lookup "size").map Span.ofData
  range := (entries.lookup "range").map Span.ofData
  items := (entries.lookup "items").map itemsOf

private theorem slotsOf_put {entries : List (String × Data)} {name : String} (new : name ∉ entries.map (·.1))
    (value : Data) :
    (slotsOf entries).put (.text name) value (fun _ => itemsOf value) = slotsOf (entries ++ [(name, value)]) := by
  have found : (entries ++ [(name, value)]).lookup name = some value := by
    simp [List.lookup_append, lookup_new new]
  have kept (other : String) (apart : other ≠ name) :
      (entries ++ [(name, value)]).lookup other = entries.lookup other := by
    simp [List.lookup_append, List.lookup_cons, beq_eq_false_iff_ne.mpr apart]
  by_cases structured : isStructured name = true
  · have plain : (entries ++ [(name, value)]).filter (!isStructured ·.1) = entries.filter (!isStructured ·.1) := by
      simp [structured]
    simp only [isStructured, Bool.or_eq_true, beq_iff_eq, or_assoc] at structured
    rcases structured with rfl | rfl | rfl
    · rw [slotsOf, slotsOf, plain, found, kept "range" (by decide), kept "items" (by decide)]
      rfl
    · rw [slotsOf, slotsOf, plain, found, kept "size" (by decide), kept "items" (by decide)]
      rfl
    · rw [slotsOf, slotsOf, plain, found, kept "size" (by decide), kept "range" (by decide)]
      rfl
  · have plain : (entries ++ [(name, value)]).filter (!isStructured ·.1) =
        entries.filter (!isStructured ·.1) ++ [(name, value)] := by
      simp [structured]
    have fresh : name ∉ (entries.filter (!isStructured ·.1)).map (·.1) := by
      intro member
      obtain ⟨entry, inside, same⟩ := List.mem_map.mp member
      exact new (same ▸ List.mem_map_of_mem (List.mem_of_mem_filter inside))
    simp only [isStructured, Bool.or_eq_true, beq_iff_eq, not_or] at structured
    obtain ⟨⟨size, range⟩, items⟩ := structured
    rw [slotsOf, slotsOf, plain, kept "size" (Ne.symm size), kept "range" (Ne.symm range), kept "items" (Ne.symm items),
      ← put_named fresh, Slots.put]
    · intro same
      exact size (Key.text.inj same)
    · intro same
      exact range (Key.text.inj same)
    · intro same
      exact items (Key.text.inj same)

private theorem slotsOfFields_named (before entries : List (String × Data))
    (apart : ((before ++ entries).map (·.1)).Nodup) :
    slotsOfFields (slotsOf before) (named entries) = slotsOf (before ++ entries) := by
  induction entries generalizing before with
  | nil =>
    rw [List.append_nil]
    rfl
  | cons entry rest ih =>
    obtain ⟨name, value⟩ := entry
    have new : name ∉ before.map (·.1) := by
      rw [List.map_append, List.nodup_append] at apart
      intro member
      exact apart.2.2 name member name (by simp) rfl
    change slotsOfFields ((slotsOf before).put (.text name) value fun _ => itemsOf value) (named rest) = _
    rw [slotsOf_put new, ih _ (by simpa using apart), List.append_assoc]
    rfl

private theorem plain_find {entries : List (String × Data)} {field : String} (plain : isStructured field = false) :
    (slotsOf entries).plain.find? field = entries.lookup field := by
  rw [slotsOf, find_named]
  induction entries with
  | nil => rfl
  | cons entry rest ih =>
    obtain ⟨name, value⟩ := entry
    rw [List.lookup_cons]
    by_cases same : field = name
    · subst same
      simp [plain]
    · have other : (field == name) = false := beq_eq_false_iff_ne.mpr same
      rw [other]
      cases structured : isStructured name with
      | true => simpa [structured] using ih
      | false => simpa [structured, List.lookup_cons, other] using ih

section
variable {role : Role} {draft : Draft} {field : String} {value : Data}

private def fieldValues (draft : Draft) : List (String × Data) :=
  [("name", draft.name), ("type", draft.type), ("number", draft.number), ("optional", draft.optional),
   ("primitive", draft.primitive), ("series", draft.series), ("size", (draft.size.map Span.data).getD .null),
   ("range", (draft.range.map Span.data).getD .null), ("items", itemsData draft.items),
   ("extensible", draft.extensible), ("comment", draft.comment)]

private def shownValue (draft : Draft) (field : String) : Option Data :=
  ((fieldValues draft).lookup field).filter (!isOmitted ·)

private def shownEntries (role : Role) (draft : Draft) : List (String × Data) :=
  (order role).filterMap fun field => (shownValue draft field).map (field, ·)

private theorem data_shown (role : Role) (draft : Draft) : draft.data role = .object (named (shownEntries role draft)) := by
  cases draft with
  | mk name type number isOptional primitive series size range items extensible comment =>
    rw [Draft.data, Data.record, shownEntries]
    congr 2
    apply List.filterMap_congr
    intro field _
    rw [shownValue, fieldValues]
    generalize List.lookup field _ = found
    cases found with
    | none => rfl
    | some value => cases omitted : isOmitted value <;> simp [Option.filter, omitted]

private theorem shown_lookup (role : Role) (draft : Draft) (field : String) :
    (shownEntries role draft).lookup field = if field ∈ order role then shownValue draft field else none := by
  rw [shownEntries]
  generalize order role = names
  induction names with
  | nil => rfl
  | cons name rest ih =>
    rw [List.filterMap_cons]
    by_cases same : field = name
    · subst same
      cases value : shownValue draft field with
      | none => simpa [value] using ih
      | some value => simp
    · have other : (field == name) = false := beq_eq_false_iff_ne.mpr same
      cases value : shownValue draft name with
      | none => simpa [same] using ih
      | some value => simpa [same, List.lookup_cons, other] using ih

private theorem shown_apart (role : Role) (draft : Draft) : ((shownEntries role draft).map (·.1)).Nodup := by
  have distinct : (order role).Nodup := by cases role <;> decide
  apply List.Nodup.sublist _ distinct
  rw [shownEntries]
  generalize order role = names
  induction names with
  | nil => exact .slnil
  | cons name rest ih =>
    rw [List.filterMap_cons]
    cases shownValue draft name with
    | none => exact ih.cons name
    | some value => exact ih.cons_cons name

private theorem shown_known : ∀ found ∈ (slotsOf (shownEntries role draft)).plain,
    ∃ name ∈ order role, found.1 = .text name := by
  intro found member
  obtain ⟨entry, inside, rfl⟩ := List.mem_map.mp member
  obtain ⟨name, listed, own⟩ := List.mem_filterMap.mp (List.mem_of_mem_filter inside)
  obtain ⟨value, -, rfl⟩ := Option.map_eq_some_iff.mp own
  exact ⟨name, listed, rfl⟩

private theorem shown_own (own : (field, value) ∈ fieldValues draft) :
    shownValue draft field = if isOmitted value then none else some value := by
  have found : (fieldValues draft).lookup field = some value := by
    simp only [fieldValues, List.mem_cons, Prod.mk.injEq, List.not_mem_nil, or_false] at own
    rcases own with ⟨rfl, rfl⟩ | ⟨rfl, rfl⟩ | ⟨rfl, rfl⟩ | ⟨rfl, rfl⟩ | ⟨rfl, rfl⟩ | ⟨rfl, rfl⟩ | ⟨rfl, rfl⟩ | ⟨rfl, rfl⟩ |
      ⟨rfl, rfl⟩ | ⟨rfl, rfl⟩ | ⟨rfl, rfl⟩ <;> simp [fieldValues, List.lookup_cons]
  rw [shownValue, found]
  cases omitted : isOmitted value <;> simp [Option.filter, omitted]

private def defaultOf : String → Data
  | "optional" | "extensible" => .bool false
  | _ => .null

private theorem defaultOf_omitted (field : String) : isOmitted (defaultOf field) = true := by
  rw [defaultOf.eq_def]
  split <;> rfl

/-- A field holds its default, or it is one that the data of a role shows. -/
private def Kept (role : Role) (field : String) (value : Data) : Prop :=
  value = defaultOf field ∨ (field ∈ order role ∧ isOmitted value = false)

/-- What the fields of a draft have to satisfy to come back from data; its items are a matter of their own. -/
private structure Regular (role : Role) (draft : Draft) : Prop where
  name : isOmitted draft.name = false
  type : role = .definition → isOmitted draft.type = false
  size : ∀ span, draft.size = some span → Span.ofData span.data = .ok span
  range : ∀ span, draft.range = some span → Span.ofData span.data = .ok span
  kept : ∀ field ∈ [("type", draft.type), ("number", draft.number), ("optional", draft.optional),
    ("primitive", draft.primitive), ("series", draft.series), ("extensible", draft.extensible),
    ("comment", draft.comment)], Kept role field.1 field.2

private theorem kept_back (kept : Kept role field value) (own : (field, value) ∈ fieldValues draft)
    (plain : isStructured field = false) :
    ((slotsOf (shownEntries role draft)).plain.find? field).getD (defaultOf field) = value := by
  rw [plain_find plain, shown_lookup, shown_own own]
  rcases kept with rfl | ⟨listed, visible⟩
  · rw [defaultOf_omitted]
    simp
  · simp [listed, visible]

/-- Fields that are found make up a draft if all are fields of its role and those that must be there are. -/
private theorem draft_settled {slots : Slots} {size range : Option Span} {items : Option (List Draft)} {name : Data}
    (sized : slots.size = size.map .ok) (limited : slots.range = range.map .ok) (listed : slots.items = items.map .ok)
    (known : ∀ field ∈ slots.plain, ∃ name ∈ order role, field.1 = .text name)
    (present : slots.plain.find? "name" = some name) (typed : role = .definition → slots.plain.has "type" = true) :
    slots.draft role = .ok {
      name, size, range, items
      type := (slots.plain.find? "type").getD (defaultOf "type")
      number := (slots.plain.find? "number").getD (defaultOf "number")
      optional := (slots.plain.find? "optional").getD (defaultOf "optional")
      primitive := (slots.plain.find? "primitive").getD (defaultOf "primitive")
      series := (slots.plain.find? "series").getD (defaultOf "series")
      extensible := (slots.plain.find? "extensible").getD (defaultOf "extensible")
      comment := (slots.plain.find? "comment").getD (defaultOf "comment") } := by
  have complete : (role = .definition && !slots.plain.has "type") = false := by
    cases role with
    | item => rfl
    | definition => simp [typed rfl]
  simp only [Slots.draft, sized, limited, listed, settle_ok, bind, Except.bind]
  rw [if_neg, present]
  · simp only [complete]
    rfl
  · rw [Bool.not_eq_true, Bool.not_eq_false', List.all_eq_true]
    intro field member
    obtain ⟨name, inside, same⟩ := known field member
    rw [same]
    exact List.contains_iff_mem.mpr inside

private theorem span_back {span : Option Span} (listed : field ∈ order role)
    (own : (field, (span.map Span.data).getD .null) ∈ fieldValues draft)
    (back : ∀ found, span = some found → Span.ofData found.data = .ok found) :
    ((shownEntries role draft).lookup field).map Span.ofData = span.map .ok := by
  rw [shown_lookup, if_pos listed, shown_own own]
  cases span with
  | none => rfl
  | some found =>
    change (some found.data).map Span.ofData = _
    rw [Option.map_some, back found rfl, Option.map_some]

private theorem itemList_back (back : ∀ list, draft.items = some list → listOf (listData list) = .ok list) :
    ((shownEntries role draft).lookup "items").map itemsOf = draft.items.map .ok := by
  have listed : "items" ∈ order role := by cases role <;> decide
  have own : ("items", itemsData draft.items) ∈ fieldValues draft := by simp [fieldValues]
  rw [shown_lookup, if_pos listed, shown_own own]
  cases items : draft.items with
  | none => rfl
  | some list =>
    change (some (Data.array (listData list))).map itemsOf = _
    rw [Option.map_some, itemsOf, back list items, Option.map_some]

private theorem ofData_data (regular : Regular role draft)
    (items : ∀ list, draft.items = some list → listOf (listData list) = .ok list) :
    Draft.ofData role (draft.data role) = .ok draft := by
  have read : slotsOfFields {} (named (shownEntries role draft)) = slotsOf (shownEntries role draft) :=
    slotsOfFields_named [] _ (shown_apart role draft)
  have sized : (slotsOf (shownEntries role draft)).size = draft.size.map .ok :=
    span_back (by cases role <;> decide) (by simp [fieldValues]) regular.size
  have limited : (slotsOf (shownEntries role draft)).range = draft.range.map .ok :=
    span_back (by cases role <;> decide) (by simp [fieldValues]) regular.range
  have present : (slotsOf (shownEntries role draft)).plain.find? "name" = some draft.name := by
    have listed : "name" ∈ order role := by cases role <;> decide
    have own : ("name", draft.name) ∈ fieldValues draft := by simp [fieldValues]
    rw [plain_find rfl, shown_lookup, if_pos listed, shown_own own, regular.name]
    rfl
  have typed : role = .definition → (slotsOf (shownEntries role draft)).plain.has "type" = true := by
    intro definition
    have listed : "type" ∈ order role := by cases role <;> decide
    have own : ("type", draft.type) ∈ fieldValues draft := by simp [fieldValues]
    rw [Fields.has, plain_find rfl, shown_lookup, if_pos listed, shown_own own, regular.type definition]
    rfl
  rw [data_shown, Draft.ofData, read, draft_settled sized limited (itemList_back items) shown_known present typed]
  have kept := regular.kept
  simp only [List.forall_mem_cons, List.not_mem_nil, false_implies, implies_true, and_true] at kept
  obtain ⟨type, number, isOptional, primitive, series, extensible, comment⟩ := kept
  rw [kept_back type (by simp [fieldValues]) rfl, kept_back number (by simp [fieldValues]) rfl,
    kept_back isOptional (by simp [fieldValues]) rfl, kept_back primitive (by simp [fieldValues]) rfl,
    kept_back series (by simp [fieldValues]) rfl, kept_back extensible (by simp [fieldValues]) rfl,
    kept_back comment (by simp [fieldValues]) rfl]
  cases draft
  rfl

end

private theorem bound_back (bound : Bound) : bound.data.ofBound.toBound = bound.data := by
  cases bound with
  | int value => rfl
  | real value =>
    cases value with
    | nan | finite => rfl
    | infinite negative => cases negative <;> rfl

private theorem ranges_back (range : Option Range) :
    ∀ span, range.map Range.span = some span → Span.ofData span.data = .ok span := by
  intro span given
  obtain ⟨range, -, rfl⟩ := Option.map_eq_some_iff.mp given
  change Except.ok (⟨range.min.data.ofBound.toBound, range.max.data.ofBound.toBound⟩ : Span) = _
  rw [bound_back, bound_back]
  rfl

section
variable {role : Role} {field : String} {α : Type} {data : α → Data}

private theorem kept_orNull (listed : field ∈ order role) (null : defaultOf field = .null)
    (visible : ∀ value, isOmitted (data value) = false) (value : Option α) : Kept role field (orNull data value) := by
  cases value with
  | none => exact .inl null.symm
  | some value => exact .inr ⟨listed, visible value⟩

private theorem kept_bool (listed : field ∈ order role) (no : defaultOf field = .bool false) (value : Bool) :
    Kept role field (.bool value) := by
  cases value with
  | false => exact .inl no.symm
  | true => exact .inr ⟨listed, rfl⟩

private theorem orNull_injective (injective : ∀ first second, data first = data second → first = second)
    (visible : ∀ value, isOmitted (data value) = false) {first second : Option α}
    (same : orNull data first = orNull data second) : first = second := by
  have never (value : α) : data value ≠ .null := by
    intro null
    have seen := visible value
    rw [null] at seen
    cases seen
  cases first with
  | none =>
    cases second with
    | none => rfl
    | some value => exact absurd same.symm (never value)
  | some value =>
    cases second with
    | none => exact absurd same (never value)
    | some other => rw [injective value other same]

end

private theorem series_visible (series : Series) : isOmitted series.data = false := by
  cases series <;> rfl

private theorem item_regular (item : Item) : Regular .item item.draft := by
  cases item with
  | mk name number isOptional type series size range items extensible comment =>
    refine ⟨rfl, nofun, ranges_back size, ranges_back range, ?_⟩
    simp only [List.forall_mem_cons, List.not_mem_nil, false_implies, implies_true, and_true]
    exact ⟨kept_orNull (by decide) rfl (fun _ => rfl) type, kept_orNull (by decide) rfl (fun _ => rfl) number,
      kept_bool (by decide) rfl isOptional, .inl rfl, kept_orNull (by decide) rfl series_visible series,
      kept_bool (by decide) rfl extensible, kept_orNull (by decide) rfl (fun _ => rfl) comment⟩

private theorem definition_regular (definition : Definition) : Regular .definition definition.draft := by
  refine ⟨rfl, fun _ => rfl, ranges_back definition.size, ranges_back definition.range, ?_⟩
  simp only [List.forall_mem_cons, List.not_mem_nil, false_implies, implies_true, and_true]
  exact ⟨.inr ⟨by decide, rfl⟩, .inl rfl, .inl rfl, kept_orNull (by decide) rfl (fun _ => rfl) definition.primitive,
    kept_orNull (by decide) rfl series_visible definition.series, kept_bool (by decide) rfl definition.extensible,
    kept_orNull (by decide) rfl (fun _ => rfl) definition.comment⟩

mutual

private theorem item_back (item : Item) : Draft.ofData .item (item.draft.data .item) = .ok item.draft := by
  match item with
  | .mk name number isOptional type series size range none extensible comment =>
    exact ofData_data (item_regular _) nofun
  | .mk name number isOptional type series size range (some items) extensible comment =>
    apply ofData_data (item_regular _)
    rintro _ ⟨⟩
    exact list_back items
termination_by structural item

private theorem list_back (items : List Item) :
    listOf (listData (Item.listDraft items)) = .ok (Item.listDraft items) := by
  match items with
  | [] => rfl
  | item :: rest =>
    rw [Item.listDraft, listData, listOf, item_back item, list_back rest]
    rfl
termination_by structural items

end

private theorem definition_back (definition : Definition) :
    Draft.ofData .definition definition.data = .ok definition.draft := by
  apply ofData_data (definition_regular definition)
  intro list given
  change Item.itemsDraft definition.items = some list at given
  cases items : definition.items with
  | none =>
    rw [items] at given
    cases given
  | some items' =>
    rw [items] at given
    cases given
    exact list_back items'

private theorem range_injective {first second : Option Range} (same : first.map Range.span = second.map Range.span) :
    first = second := by
  have bound (low high : Bound) (equal : low.data = high.data) : low = high := by
    cases low <;> cases high <;> cases equal <;> rfl
  apply Option.map_injective _ same
  intro range other equal
  obtain ⟨low, high⟩ := Span.mk.inj equal
  cases range
  cases other
  rw [Range.mk.injEq]
  exact ⟨bound _ _ low, bound _ _ high⟩

private theorem text_injective {first second : Option String} (same : orNull Data.text first = orNull .text second) :
    first = second :=
  orNull_injective (fun _ _ => Data.text.inj) (fun _ => rfl) same

private theorem number_injective {first second : Option Int} (same : orNull Data.int first = orNull .int second) :
    first = second :=
  orNull_injective (fun _ _ => Data.int.inj) (fun _ => rfl) same

private theorem series_injective {first second : Option Series}
    (same : orNull Series.data first = orNull Series.data second) : first = second := by
  apply orNull_injective _ series_visible same
  intro series other equal
  cases series <;> cases other <;> cases equal <;> rfl

mutual

private theorem item_injective (item other : Item) (same : item.draft = other.draft) : item = other := by
  match item, other with
  | .mk name number isOptional type series size range items extensible comment,
      .mk name' number' isOptional' type' series' size' range' items' extensible' comment' =>
    simp only [Item.draft, Draft.mk.injEq, Data.text.injEq, Data.bool.injEq] at same
    obtain ⟨rfl, types, numbers, rfl, -, repeated, sizes, ranges, lists, rfl, comments⟩ := same
    rw [text_injective types, number_injective numbers, series_injective repeated, range_injective sizes,
      range_injective ranges, items_injective items items' lists, text_injective comments]
termination_by structural item

private theorem items_injective (items others : Option (List Item))
    (same : Item.itemsDraft items = Item.itemsDraft others) : items = others := by
  match items, others with
  | none, none => rfl
  | none, some _ => cases same
  | some _, none => cases same
  | some list, some list' => rw [list_injective list list' (Option.some.inj same)]
termination_by structural items

private theorem list_injective (items others : List Item) (same : Item.listDraft items = Item.listDraft others) :
    items = others := by
  match items, others with
  | [], [] => rfl
  | [], _ :: _ => cases same
  | _ :: _, [] => cases same
  | item :: rest, item' :: rest' =>
    obtain ⟨first, later⟩ := List.cons.inj same
    rw [item_injective item item' first, list_injective rest rest' later]
termination_by structural items

end

/-- A draft of a definition tells it from all others: no two fields of different types look alike. -/
private theorem definition_injective {first second : Definition} (same : first.draft = second.draft) : first = second := by
  obtain ⟨⟨type, series, size, range, items, extensible, comment⟩, name, primitive⟩ := first
  obtain ⟨⟨type', series', size', range', items', extensible', comment'⟩, name', primitive'⟩ := second
  simp only [Definition.draft, Draft.mk.injEq, Data.text.injEq, Data.bool.injEq] at same
  obtain ⟨rfl, rfl, -, -, primitives, repeated, sizes, ranges, lists, rfl, comments⟩ := same
  rw [number_injective primitives, series_injective repeated, range_injective sizes, range_injective ranges,
    items_injective items items' lists, text_injective comments]

/-- A definition comes back from its data, with its items at every depth, and the data is the same if it is made again.
Different definitions have different data. -/
theorem definition_roundTrip (definition : Definition) :
    Draft.ofData .definition definition.data = .ok definition.draft ∧
      (∀ draft, Draft.ofData .definition definition.data = .ok draft → draft.data .definition = definition.data) ∧
      ∀ other : Definition, other.data = definition.data → other = definition := by
  have back := definition_back definition
  refine ⟨back, ?_, ?_⟩
  · intro draft read
    rw [back] at read
    cases read
    rfl
  · intro other same
    have again := definition_back other
    rw [same, back] at again
    exact (definition_injective (Except.ok.inj again)).symm

end TypeCatalog.Proofs
