import TypeCatalog.Proofs.ConfigurationSafety
import TypeCatalog.Proofs.DataParts
import TypeCatalog.Proofs.NumberedItems

/-! The order of limits in records. Every object with a minimum and a maximum, however deep, has them in order, unless a
bit string has a bit that is past the length in its entry. -/

namespace TypeCatalog.Proofs
open TypeCatalog.Normal Source

def Ordered (low high : Data) : Prop :=
  low.toBound.isLess high.toBound = true ∨ low.toBound.levelWith high.toBound = true

/-- All objects in data that have a minimum and a maximum have them in order. -/
def SpansOrdered (data : Data) : Prop := ∀ (fields : Fields) (low high : Data), Occurs (.object fields) data →
  fields.find? "minimum" = some low → fields.find? "maximum" = some high → Ordered low high

/-- A bit of a well known bit string is past the greatest length that its entry gives. -/
def Outgrown (name : String) (shape : Shape) : Prop :=
  Kind.ofTypeName? shape.type = some .bitString ∧ ∃ entry maximum,
    WellKnown.standard.bitString.find? name = some entry ∧ entry.find? "maximum" = some (.int maximum) ∧
      ∃ n ∈ numbersOf (shape.items.getD []), maximum ≤ n

section
variable {data inner low high : Data} {items : List Data} {fields : Fields} {entries : List (String × Data)}

theorem SpansOrdered.inside (ordered : SpansOrdered data) (occurs : Occurs inner data) : SpansOrdered inner := by
  intro fields low high within
  exact ordered fields low high (within.inside occurs)

theorem SpansOrdered.field {name : String} {value : Data} (ordered : SpansOrdered (.object fields))
    (found : fields.find? name = some value) : SpansOrdered value := by
  obtain ⟨field, listed, rfl⟩ := field_of_find found
  exact ordered.inside (.field listed .here)

theorem spansOrdered_text (text : String) : SpansOrdered (.text text) := by
  intro fields low high within
  cases within

theorem spansOrdered_int (n : Int) : SpansOrdered (.int n) := by
  intro fields low high within
  cases within

theorem spansOrdered_bool (value : Bool) : SpansOrdered (.bool value) := by
  intro fields low high within
  cases within

theorem spansOrdered_array : SpansOrdered (.array items) ↔ ∀ item ∈ items, SpansOrdered item := by
  constructor
  · intro ordered item listed
    exact ordered.inside (.item listed .here)
  · intro each fields low high within
    cases within with
    | item listed within => exact each _ listed fields low high within

theorem spansOrdered_record : SpansOrdered (.record entries) ↔
    (∀ low high, entries.lookup "minimum" = some low → entries.lookup "maximum" = some high → Ordered low high) ∧
      ∀ entry ∈ entries, SpansOrdered entry.2 := by
  constructor
  · intro ordered
    constructor
    · intro low high minimum maximum
      exact ordered (named entries) low high .here (by rwa [find_named]) (by rwa [find_named])
    · intro entry listed
      exact ordered.inside (occurs_record entry.1 listed .here)
  · intro ordered fields low high within minimum maximum
    obtain ⟨own, each⟩ := ordered
    rw [Data.record] at within
    cases within with
    | here =>
      change (named entries).find? _ = _ at minimum maximum
      rw [find_named] at minimum maximum
      exact own low high minimum maximum
    | field listed within =>
      obtain ⟨entry, member, same⟩ := List.mem_map.mp listed
      cases same
      exact each entry member fields low high within minimum maximum

theorem spansOrdered_plain (free : "minimum" ∉ entries.map (·.1)) :
    SpansOrdered (.record entries) ↔ ∀ entry ∈ entries, SpansOrdered entry.2 := by
  rw [spansOrdered_record, and_iff_right]
  intro low high minimum
  rw [lookup_new free] at minimum
  cases minimum

theorem spansOrdered_limits (first : SpansOrdered low) (second : SpansOrdered high) :
    SpansOrdered (.limits low high) ↔ Ordered low high := by
  rw [Data.limits, spansOrdered_record, and_iff_left (by simpa using ⟨first, second⟩)]
  constructor
  · intro ordered
    exact ordered low high rfl rfl
  · intro ordered _ _ minimum maximum
    cases minimum
    cases maximum
    exact ordered

theorem spansOrdered_valueSpan (low high : Int) : SpansOrdered (.valueSpan low high) := by
  rw [Data.valueSpan, spansOrdered_plain (by simp)]
  simpa using ⟨spansOrdered_int low, spansOrdered_int high⟩

theorem ordered_int (m n : Int) : Ordered (.int m) (.int n) ↔ m ≤ n := by
  have level : (Data.int m).levelWith (.int n) = decide (m = n) := by
    simp [Data.levelWith, Data.place?, Magnitude.ofInt, Magnitude.same, beq_eq_decide]
  change (Data.int m).isLess (.int n) = true ∨ (Data.int m).levelWith (.int n) = true ↔ m ≤ n
  rw [isLess_int, level, decide_eq_true_eq, decide_eq_true_eq]
  omega

end

section
variable {limit : Bound} {shown : Data}

theorem bound_shown (known : bound limit.data = .ok shown) : shown.toBound = limit.data ∧ SpansOrdered shown := by
  cases limit with
  | int n =>
    rw [Bound.data, bound] at known
    split at known
    · cases known
    · cases known
      exact ⟨rfl, spansOrdered_int n⟩
  | real value =>
    cases known
    cases value with
    | infinite negative => cases negative <;> exact ⟨rfl, spansOrdered_text _⟩
    | nan | finite =>
      refine ⟨rfl, ?_⟩
      intro fields low high within
      cases within

theorem limits_shown {range : Range} {low high : Data} (first : bound range.min.data = .ok low)
    (second : bound range.max.data = .ok high) (ordered : AtMost range.min range.max) :
    Ordered low high ∧ SpansOrdered low ∧ SpansOrdered high := by
  obtain ⟨least, plain⟩ := bound_shown first
  obtain ⟨greatest, plain'⟩ := bound_shown second
  rw [Ordered, least, greatest]
  exact ⟨ordered, plain, plain'⟩

theorem length_shown {size : Range} (made : length size.span = .ok shown) (ordered : AtMost size.min size.max) :
    SpansOrdered shown := by
  have number (limit : Bound) : limit.data.isNumber = true := by cases limit <;> rfl
  by_cases level : size.min.data.levelWith size.max.data = true
  · simp only [length, Range.span, number, level, Bool.and_self, if_true] at made
    exact (bound_shown made).2
  · simp only [length, Range.span, number, level, Bool.and_self, if_true] at made
    obtain ⟨_, minimum, made⟩ := of_bind_ok made
    obtain ⟨_, maximum, made⟩ := of_bind_ok made
    cases made
    obtain ⟨proper, low, high⟩ := limits_shown minimum maximum ordered
    exact (spansOrdered_limits low high).mpr proper

end

theorem seriesData_ordered (series : Option Series) : SpansOrdered (orNull Series.data series) := by
  cases series with
  | none =>
    intro fields low high within
    cases within
  | some series => cases series <;> first | exact spansOrdered_bool true | exact spansOrdered_int _

theorem withSeries_text (series : Option Series) (text : String) :
    SpansOrdered (withSeries (orNull Series.data series) (.text text)) := by
  rw [withSeries.eq_def]
  split
  · exact spansOrdered_text text
  · change SpansOrdered (.record [("base", .text text), ("series", _)])
    rw [spansOrdered_plain (by simp)]
    simpa using ⟨spansOrdered_text text, seriesData_ordered series⟩

theorem withSeries_ordered {entries : List (String × Data)} (new : "series" ∉ entries.map (·.1)) (series : Option Series) :
    SpansOrdered (withSeries (orNull Series.data series) (.record entries)) ↔ SpansOrdered (.record entries) := by
  change SpansOrdered (withSeries _ (.object (named entries))) ↔ _
  rw [withSeries]
  split
  · rfl
  · rw [put_named new]
    change SpansOrdered (.record _) ↔ _
    have minimum : List.lookup "minimum" [("series", orNull Series.data series)] = none := rfl
    have maximum : List.lookup "maximum" [("series", orNull Series.data series)] = none := rfl
    rw [spansOrdered_record, spansOrdered_record, List.lookup_append, List.lookup_append, minimum, maximum, Option.or_none,
      Option.or_none, List.forall_mem_append, List.forall_mem_singleton, and_iff_left (seriesData_ordered series)]

theorem standard_ordered :
    (∀ name entry, WellKnown.standard.enumerated.find? name = some entry → SpansOrdered entry) ∧
      ∀ name entry, WellKnown.standard.bitString.find? name = some entry → SpansOrdered entry := by
  have enumeration (name : String) (standardTo proprietaryTo : Int) (natural : 0 ≤ proprietaryTo + 1) :
      SpansOrdered (WellKnown.enumeration name standardTo proprietaryTo).2 := by
    change SpansOrdered (.record _)
    rw [spansOrdered_plain (by simp)]
    simp only [List.forall_mem_cons, List.not_mem_nil, false_implies, implies_true, and_true]
    refine ⟨?_, spansOrdered_valueSpan _ _, spansOrdered_valueSpan _ _⟩
    rw [spansOrdered_limits (spansOrdered_int _) (spansOrdered_int _), ordered_int]
    exact natural
  have enumerated : ∀ field ∈ WellKnown.standard.enumerated, SpansOrdered field.2 := by
    simp only [WellKnown.standard, List.forall_mem_cons]
    refine ⟨?_, ?_, ?_, ?_, ?_, ?_, ?_, ?_, ?_, ?_, ?_, List.forall_mem_nil _⟩ <;> exact enumeration _ _ _ (by decide)
  constructor
  · intro name entry found
    obtain ⟨field, listed, rfl⟩ := field_of_find found
    exact enumerated field listed
  · intro name entry found
    obtain ⟨field, listed, rfl⟩ := field_of_find found
    rw [standard_entries.2 field listed, spansOrdered_plain (by simp)]
    simpa using ⟨spansOrdered_int 64, spansOrdered_valueSpan 32 63⟩

theorem copied_ordered {fields : Fields} {name : String} {more : List (String × Data)} (object : ObjectIfAny fields name)
    (ordered : SpansOrdered (.object fields)) (made : copied name (.object fields) = .ok more) :
    ∀ entry ∈ more, SpansOrdered entry.2 := by
  have field : (Data.object fields).find? name = fields.find? name := rfl
  rw [copied, field] at made
  cases found : fields.find? name with
  | none =>
    rw [found] at made
    cases made
    exact List.forall_mem_nil _
  | some value =>
    rw [found] at made
    obtain ⟨inner, rfl⟩ := object value found
    cases made
    rw [List.forall_mem_singleton]
    exact ordered.field found

theorem numbered_ordered {key : String} (other : "minimum" ≠ key) (items : List Item) :
    SpansOrdered (.array (items.map (numberedEntry key))) := by
  rw [spansOrdered_array, List.forall_mem_map]
  intro item _
  rw [numberedEntry, spansOrdered_plain (by simpa using other)]
  simpa using ⟨spansOrdered_text _, spansOrdered_text _, spansOrdered_int _⟩

section
variable {draft : Draft} {name : String} {extensible : Bool} {items : List Item} {list data : Data} {low high : Int}

/-- The limits of a bit string are in order unless its greatest position is past the length in its entry. -/
theorem BitStringRecord.ordered (record : BitStringRecord WellKnown.standard.bitString name extensible list high data)
    (listed : SpansOrdered list) (greatest : IsGreatest (numbersOf items) high) :
    SpansOrdered data ↔ ¬ ∃ entry maximum, WellKnown.standard.bitString.find? name = some entry ∧
      entry.find? "maximum" = some (.int maximum) ∧ ∃ n ∈ numbersOf items, maximum ≤ n := by
  have front : ∀ entry ∈ [("base", Data.text "bit-string"), ("bits", list), ("extensible", .bool extensible)],
      SpansOrdered entry.2 := by
    simpa using ⟨spansOrdered_text _, listed, spansOrdered_bool _⟩
  cases record with
  | own unlisted =>
    apply iff_of_true
    · rw [spansOrdered_plain (by simp), List.forall_mem_append, List.forall_mem_singleton]
      exact ⟨front, spansOrdered_int _⟩
    · intro known
      obtain ⟨entry, maximum, found, -⟩ := known
      have holding := (standard_usable.bitString name entry found).holds
      simp [found, holding] at unlisted
  | @known entry maximum more listed limited copies =>
    have found := (Option.filter_eq_some_iff.mp listed).1
    obtain ⟨field, member, same⟩ := field_of_find found
    rw [standard_entries.2 field member] at same
    have ordered := standard_ordered.2 name entry found
    subst same
    cases limited
    have object : ObjectIfAny (named [("maximum", .int 64), ("proprietary", .valueSpan 32 63)]) "proprietary" := by
      intro value given
      cases given
      exact ⟨_, rfl⟩
    have back := copied_ordered object ordered copies
    have keys := copied_keys copies
    rw [spansOrdered_plain, List.forall_mem_append, List.forall_mem_append, List.forall_mem_singleton,
      spansOrdered_limits (spansOrdered_int _) (spansOrdered_int _), ordered_int, and_iff_right front, and_iff_left back]
    · constructor
      · intro order known
        obtain ⟨_, maximum, same, limit, n, inside, past⟩ := known
        rw [found] at same
        cases same
        cases limit
        have least := greatest.2 inside
        omega
      · intro within
        by_contra past
        exact within ⟨_, 64, found, rfl, high, greatest.1, by omega⟩
    · rw [List.map_append, List.mem_append, not_or]
      refine ⟨by simp, fun listed => ?_⟩
      simpa using keys listed

theorem EnumeratedRecord.ordered
    (record : EnumeratedRecord WellKnown.standard.enumerated draft name extensible items list low high data)
    (listed : SpansOrdered list) (least : IsLeast (numbersOf items) low) (greatest : IsGreatest (numbersOf items) high) :
    SpansOrdered data := by
  have range : SpansOrdered (.limits (.int low) (.int (high + 1))) := by
    have order := greatest.2 least.1
    rw [spansOrdered_limits (spansOrdered_int _) (spansOrdered_int _), ordered_int]
    omega
  have front : ∀ entry ∈ [("base", Data.text "enumerated"), ("values", list)], SpansOrdered entry.2 := by
    simpa using ⟨spansOrdered_text _, listed⟩
  have own : ∀ entry ∈ [("extensible", .bool extensible), ("range", Data.limits (.int low) (.int (high + 1)))],
      SpansOrdered entry.2 := by
    simpa using ⟨spansOrdered_bool _, range⟩
  cases record with
  | closed =>
    rw [spansOrdered_plain (by simp), List.forall_mem_append]
    exact ⟨front, own⟩
  | @opened spans _ _ reserved =>
    have back : ∀ entry ∈ spanFields spans, SpansOrdered entry.2 := by
      cases spans with
      | none => simpa [spanFields, unspecified] using spansOrdered_valueSpan 1 0
      | some spans =>
        obtain ⟨standard, proprietary⟩ := spans
        obtain ⟨_, _, _, _, -, -, -, rfl, rfl⟩ := reservedSpans_found reserved
        simpa [spanFields] using ⟨spansOrdered_valueSpan _ _, spansOrdered_valueSpan _ _⟩
    rw [spansOrdered_plain, List.forall_mem_append, List.forall_mem_append]
    · exact ⟨⟨front, own⟩, back⟩
    · cases spans <;> simp [spanFields]
  | @known entry range fields standard proprietary known ranged object first second =>
    have found := (Option.filter_eq_some_iff.mp known).1
    have ordered := standard_ordered.1 name entry found
    have keys := copied_keys first
    have keys' := copied_keys second
    cases standard_usable.enumerated name entry found with
    | mk limited standardObject proprietaryObject =>
      rw [required, limited] at ranged
      cases ranged
      cases object
      have back := copied_ordered standardObject ordered first
      have back' := copied_ordered proprietaryObject ordered second
      rw [spansOrdered_plain, List.forall_mem_append, List.forall_mem_append, List.forall_mem_append]
      · refine ⟨⟨⟨front, ?_⟩, back⟩, back'⟩
        simpa using ⟨spansOrdered_bool true, ordered.field limited⟩
      · rw [List.map_append, List.map_append, List.mem_append, List.mem_append, not_or, not_or]
        refine ⟨⟨by simp, fun listed => ?_⟩, fun listed => ?_⟩
        · simpa using keys listed
        · simpa using keys' listed

end

section
variable {rules : Rules} {shape : Shape} {name : String}

theorem not_outgrown_item (proper : isItemName name.toList = true) : ¬ Outgrown name shape := by
  intro outgrown
  obtain ⟨-, entry, maximum, found, -⟩ := outgrown
  have free : WellKnown.standard.bitString.find? name = none := standard_keyed.bitString.itemFree proper
  rw [free] at found
  cases found

theorem not_outgrown_kind (other : Kind.ofTypeName? shape.type ≠ some .bitString ∨ shape.items = none) :
    ¬ Outgrown name shape := by
  intro outgrown
  obtain ⟨kind, entry, maximum, -, -, n, ⟨item, listed, -⟩, -⟩ := outgrown
  rcases other with other | itemless
  · exact other kind
  · rw [itemless] at listed
    cases listed

theorem memberEntry_ordered (areFields : Bool) (item : Item) {type : Data} (own : SpansOrdered type) :
    SpansOrdered (memberEntry areFields item type) := by
  rw [memberEntry, context_list, comment_list]
  generalize item.number.filter _ = tag, item.comment.filter _ = text
  rw [spansOrdered_plain]
  · simp only [List.forall_mem_append]
    refine ⟨⟨⟨?_, ?_⟩, ?_⟩, ?_⟩
    · simpa using ⟨spansOrdered_text item.name, spansOrdered_text (Name.ofItem item.name), own⟩
    · cases tag <;> simp [spansOrdered_int]
    · cases areFields <;> simp [spansOrdered_bool]
    · cases text <;> simp [spansOrdered_text]
  · cases tag <;> cases areFields <;> cases text <;> simp

theorem members_ordered {kind : Kind} {items : List Item} {areFields : Bool} {list : List Data}
    (complex : kind.isSimple = false) (each : ∀ item ∈ items, ItemFits rules kind item)
    (inner : ∀ name tag isOptional shape data, member name tag isOptional shape ∈ items → ShapeFits rules shape →
      type .standard (member name tag isOptional shape).draft = .ok data → (SpansOrdered data ↔ ¬ Outgrown name shape))
    (made : members .standard areFields (Item.listDraft items) = .ok list) : ∀ entry ∈ list, SpansOrdered entry := by
  have entries := @members_made _ _ _ _ _ _ (fun _ data => SpansOrdered data) complex each
    (fun name tag isOptional shape data inside proper fits typed =>
      (inner name tag isOptional shape data inside fits typed).mpr (not_outgrown_item proper)) made
  clear made inner each
  induction entries with
  | nil => exact List.forall_mem_nil _
  | @cons item _ _ _ first _ ih =>
    obtain ⟨-, -, own⟩ := first
    exact List.forall_mem_cons.mpr ⟨memberEntry_ordered areFields item own, ih⟩

/-- The limits in the type of a draft are in order, unless the draft itself is a bit string that its entry is too small
for: members are never well known. -/
theorem type_ordered (shape : Shape) : ∀ draft name data, DraftOf draft name shape → ShapeFits rules shape →
    type .standard draft = .ok data → (SpansOrdered data ↔ ¬ Outgrown name shape) := by
  induction shape using nested_induction with
  | step shape ih =>
    intro draft name data drawn fits made
    obtain ⟨base, form, same⟩ := type_form drawn fits
    rw [same, drawn.series] at made
    obtain ⟨bare, known, result⟩ := of_bind_ok made
    cases result
    obtain ⟨-, -, -, sizes, ranges, -, -⟩ := fits
    cases form with
    | plain _ itemless =>
      cases known
      exact iff_of_true (withSeries_text _ _) (not_outgrown_kind (.inr itemless))
    | limited given _ itemless =>
      obtain ⟨_, minimum, known⟩ := of_bind_ok known
      obtain ⟨_, maximum, known⟩ := of_bind_ok known
      cases known
      obtain ⟨proper, low, high⟩ := limits_shown minimum maximum (ranges _ given).2.2
      refine iff_of_true ?_ (not_outgrown_kind (.inr itemless))
      rw [withSeries_ordered (by simp), spansOrdered_record]
      constructor
      · intro _ _ first second
        cases first
        cases second
        exact proper
      · simpa using ⟨spansOrdered_text _, low, high⟩
    | sized given _ itemless =>
      obtain ⟨extent, long, known⟩ := of_bind_ok known
      cases known
      refine iff_of_true ?_ (not_outgrown_kind (.inr itemless))
      rw [withSeries_ordered (by simp), spansOrdered_plain (by simp)]
      simpa using ⟨spansOrdered_text _, length_shown long (sizes _ given).2.2⟩
    | bits kind listed _ each =>
      obtain ⟨sorted, low, high, -, -, greatest, record⟩ :=
        bitString_record drawn.toCarries (numbered_of_simple rfl each) known
      have ordered := record.ordered (numbered_ordered (by decide) sorted) greatest
      obtain ⟨entries, rfl, keys⟩ := record.keys
      rw [withSeries_ordered fun inside => absurd (keys inside) (by decide), ordered, Outgrown, kind, listed]
      simp
    | values kind listed _ each =>
      obtain ⟨sorted, low, high, -, least, greatest, record⟩ :=
        enumerated_record drawn.toCarries (numbered_of_simple rfl each) known
      have ordered := record.ordered (numbered_ordered (by decide) sorted) least greatest
      obtain ⟨entries, rfl, keys⟩ := record.keys
      rw [withSeries_ordered fun inside => absurd (keys inside) (by decide)]
      exact iff_of_true ordered (not_outgrown_kind (.inl (by simp [kind])))
    | members base key areFields other complex kind listed _ each called =>
      obtain ⟨list, entries, known⟩ := of_bind_ok known
      cases known
      have ordered := members_ordered complex each
        (fun name tag isOptional inner data inside fits typed =>
          ih inner (inside_of_listed listed inside) _ name data (member_draft name tag isOptional inner) fits typed) entries
      refine iff_of_true ?_ (not_outgrown_kind (.inl ?_))
      · rw [withSeries_ordered (by simpa using other), spansOrdered_plain (by cases called <;> simp)]
        simpa using ⟨spansOrdered_text base, spansOrdered_array.mpr ordered⟩
      · rw [kind]
        cases called <;> simp

end

section
variable {registry : Option Registry} {definition : Definition} {record : Data}

/-- In the record that is made for a definition of an accepted text, every minimum is at most the maximum beside it, with
MIN below and MAX above all numbers, unless the definition is a well known bit string with a bit past its length. -/
theorem normalize_ordered (parsed : Parsed definition)
    (normalized : normalize registry .standard definition.draft = .ok (.made record)) :
    SpansOrdered record ↔ ¬ Outgrown definition.name definition.toShape := by
  have fits : DefinitionFits plainRules definition := parsed.fits
  rcases normalize_source normalized with ⟨key, entry, -, found⟩ | ⟨made, -⟩
  · cases found
  · obtain ⟨primitive, comment, type, typed, tagged, noted, whole⟩ := normalize_made made
    change record = _ at whole
    subst whole
    rw [← type_ordered definition.toShape _ _ type (definition_draft definition) fits.shape typed, spansOrdered_plain]
    · simp only [List.forall_mem_append, List.forall_mem_singleton]
      rw [and_iff_right]
      refine ⟨⟨?_, ?_⟩, ?_⟩
      · simpa using ⟨spansOrdered_text _, spansOrdered_text _⟩
      · rcases tagged with rfl | ⟨tag, rfl⟩
        · exact List.forall_mem_nil _
        · simpa using spansOrdered_int tag
      · rcases noted with rfl | ⟨text, rfl⟩
        · exact List.forall_mem_nil _
        · simpa using spansOrdered_text text
    · rcases tagged with rfl | ⟨tag, rfl⟩
      · rcases noted with rfl | ⟨text, rfl⟩ <;> simp
      · rcases noted with rfl | ⟨text, rfl⟩ <;> simp

end

/-- Limits at different depths: those of an enumeration, and infinite ones of a number. -/
theorem normalize_ordered_nested : ∃ (definition : Definition) (record : Data),
    parse "Zone ::= SEQUENCE \x7b a [0] ENUMERATED \x7b on (1) \x7d, b [1] CHOICE \x7b c [0] Real (MIN..MAX) \x7d \x7d" =
      .ok [definition] ∧ normalize none .standard definition.draft = .ok (.made record) ∧ SpansOrdered record := by
  obtain ⟨definition, record, accepted, normalized, other⟩ : ∃ (definition : Definition) (record : Data),
      parse "Zone ::= SEQUENCE \x7b a [0] ENUMERATED \x7b on (1) \x7d, b [1] CHOICE \x7b c [0] Real (MIN..MAX) \x7d \x7d" =
        .ok [definition] ∧ normalize none .standard definition.draft = .ok (.made record) ∧
      Kind.ofTypeName? definition.type ≠ some .bitString := ⟨_, _, by cbv, by rfl, by decide⟩
  have parsed : Parsed definition := ⟨_, _, accepted, List.mem_singleton_self _⟩
  exact ⟨definition, record, accepted, normalized,
    (normalize_ordered parsed normalized).mpr (not_outgrown_kind (.inl other))⟩

private def flagsType : Data := .record
  [("base", .text "bit-string"),
    ("bits", .array [.record [("alias", .text "a"), ("name", .text "a"), ("position", .int 64)]]),
    ("extensible", .bool false), ("length", .limits (.int 65) (.int 64)), ("proprietary", .valueSpan 32 63)]

private def flagsRecord : Data := .record
  [("alias", .text "BACnetAuditOperationFlags"), ("name", .text "audit-operation-flags"), ("type", flagsType)]

/-- A bit past the length in the entry of its bit string turns the limits round. -/
theorem normalize_inverted : ∃ definition : Definition,
    parse "BACnetAuditOperationFlags ::= BIT STRING \x7b a (64) \x7d" = .ok [definition] ∧
    normalize none .standard definition.draft = .ok (.made flagsRecord) ∧ ¬ SpansOrdered flagsRecord := by
  refine ⟨_, by cbv, by rfl, ?_⟩
  intro ordered
  have typed : Occurs flagsType flagsRecord := occurs_record "type" (by simp) .here
  have limited : Occurs (.limits (.int 65) (.int 64)) flagsType := occurs_record "length" (by simp) .here
  have inverted := ordered _ (.int 65) (.int 64) (limited.inside typed) rfl rfl
  rw [ordered_int] at inverted
  omega

end TypeCatalog.Proofs
