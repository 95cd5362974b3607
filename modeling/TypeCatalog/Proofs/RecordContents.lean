import TypeCatalog.Proofs.TableScope
import TypeCatalog.Proofs.WrittenParts

/-! What is in the record of a type, at every depth: all bounds of the types in it, as documents spell them, and no
floating point number that is not finite. It can be written unless one of its enumerations or bit strings has a number
after its values that has too many digits. -/

namespace TypeCatalog.Proofs
open TypeCatalog.Normal Source

/-- There are values in a type after which comes a number that cannot be written. -/
def Overfull (shape : Shape) : Prop := ∃ inner, TypeIn inner shape ∧ ∃ item ∈ inner.items.getD [], TooGreat item

/-- Such a number is shown unless the type is a well known enumeration. -/
def Unwritable (name : String) (shape : Shape) : Prop :=
  Overfull shape ∧ (Kind.ofTypeName? shape.type = some .enumerated → WellKnown.standard.enumerated.find? name = none)

/-- Data has all bounds of the types in a type. -/
def ShowsBounds (shape : Shape) (data : Data) : Prop :=
  ∀ inner, TypeIn inner shape → ∀ limit ∈ shownBounds inner, Occurs limit.data.ofBound data

section
variable {shape inner : Shape} {name : String} {data outer : Data}

theorem overfull_iff :
    Overfull shape ↔ (∃ item ∈ shape.items.getD [], TooGreat item) ∨ ∃ inner, Inside inner shape ∧ Overfull inner := by
  constructor
  · intro overfull
    obtain ⟨inner, within, great⟩ := overfull
    rcases typeIn_cases.mp within with rfl | ⟨middle, deeper, inside⟩
    · exact .inl great
    · exact .inr ⟨middle, inside, inner, deeper, great⟩
  · intro overfull
    rcases overfull with great | ⟨middle, inside, inner, within, great⟩
    · exact ⟨shape, .refl, great⟩
    · exact ⟨inner, typeIn_cases.mpr (.inr ⟨middle, within, inside⟩), great⟩

theorem showsBounds_of (own : ∀ limit ∈ shownBounds shape, Occurs limit.data.ofBound data)
    (nested : ∀ inner, Inside inner shape → ShowsBounds inner data) : ShowsBounds shape data := by
  intro inner within
  rcases typeIn_cases.mp within with rfl | ⟨middle, deeper, inside⟩
  · exact own
  · exact nested middle inside inner deeper

theorem ShowsBounds.inside (shows : ShowsBounds shape data) (occurs : Occurs data outer) : ShowsBounds shape outer := by
  intro inner within limit listed
  exact (shows inner within limit listed).inside occurs

theorem not_inside_values (values : ∀ item ∈ shape.items.getD [], item.type = none) : ¬ Inside inner shape := by
  intro inside
  obtain ⟨listed, member⟩ := inside
  rw [listed] at values
  have untyped := values _ member
  cases untyped

theorem not_inside_itemless (itemless : shape.items = none) : ¬ Inside inner shape := by
  apply not_inside_values
  rw [itemless]
  exact List.forall_mem_nil _

theorem overfull_values (values : ∀ item ∈ shape.items.getD [], item.type = none) :
    Overfull shape ↔ ∃ item ∈ shape.items.getD [], TooGreat item := by
  rw [overfull_iff, or_iff_left]
  intro nested
  obtain ⟨inner, inside, -⟩ := nested
  exact not_inside_values values inside

theorem not_overfull_itemless (itemless : shape.items = none) : ¬ Overfull shape := by
  rw [overfull_iff, itemless]
  intro overfull
  rcases overfull with ⟨item, listed, -⟩ | ⟨inner, inside, -⟩
  · cases listed
  · exact not_inside_itemless itemless inside

theorem unwritable_iff (other : Kind.ofTypeName? shape.type ≠ some .enumerated) : Unwritable name shape ↔ Overfull shape := by
  rw [Unwritable, and_iff_left]
  intro enumerated
  exact absurd enumerated other

theorem unwritable_item (proper : isItemName name.toList = true) : Unwritable name shape ↔ Overfull shape := by
  rw [Unwritable, and_iff_left]
  intro _
  exact standard_keyed.enumerated.itemFree proper

end

/-- What holds of the data of a type. -/
structure Recorded (name : String) (shape : Shape) (data : Data) : Prop where
  type : IsType data
  finite : AllFinite data
  bounds : ShowsBounds shape data
  writable : data.isWritable = true ↔ ¬ Unwritable name shape

section
variable {series : Option Series} {shape : Shape} {name : String} {data : Data} {entries : List (String × Data)}

theorem bound_in_record {limit : Bound} (within : Occurs limit.data.ofBound (.record entries)) :
    ∃ entry ∈ entries, Occurs limit.data.ofBound entry.2 := by
  rw [Data.record] at within
  generalize shown : limit.data.ofBound = value at within
  cases within with
  | here =>
    cases limit with
    | int n => cases shown
    | real value =>
      cases value with
      | infinite negative => cases negative <;> cases shown
      | nan | finite => cases shown
  | field listed within =>
    obtain ⟨entry, member, same⟩ := List.mem_map.mp listed
    cases same
    exact ⟨entry, member, within⟩

theorem seriesData_written (fits : SeriesFits readRules series) (repeated : isSeries (orNull Series.data series) = true) :
    Written (orNull Series.data series) := by
  cases series with
  | none => cases repeated
  | some series =>
    cases series with
    | unbounded => exact written_bool true
    | counted count => exact written_int (fits count rfl).2

/-- A series is added to the object of a type, or turns its name into one. -/
theorem Based.recorded (based : Based (¬ Unwritable name shape) data) (bounds : ShowsBounds shape data)
    (fits : SeriesFits readRules series) : Recorded name shape (withSeries (orNull Series.data series) data) := by
  obtain ⟨bare, finite, writable⟩ := based
  by_cases repeated : isSeries (orNull Series.data series) = true
  · have written := seriesData_written fits repeated
    have last : ∀ entry ∈ [("series", orNull Series.data series)], Written entry.2 := by simpa using written
    rw [withSeries.eq_def, repeated]
    cases bare with
    | name text =>
      obtain ⟨whole, same⟩ := @record_but [] _ "base" _ (List.forall_mem_nil _) last finite
      exact ⟨.object text _, whole, bounds.inside (occurs_record "base" List.mem_cons_self .here), same.trans writable⟩
    | @object base more free =>
      have new : "series" ∉ (("base", Data.text base) :: more).map (·.1) := by simpa using free
      have put := put_named new (orNull Series.data series)
      change Recorded name shape (.object (Fields.put (.text "series") _ (named (("base", .text base) :: more))))
      rw [put]
      change Recorded name shape (.record ((("base", .text base) :: more) ++ [_]))
      refine ⟨.object base _, ?_, ?_, ?_⟩
      · rw [allFinite_record, List.forall_mem_append]
        exact ⟨allFinite_record.mp finite, fun entry listed => (last entry listed).finite⟩
      · intro inner within limit listed
        obtain ⟨entry, member, occurs⟩ := bound_in_record (bounds inner within limit listed)
        exact occurs_record entry.1 (List.mem_append_left _ member) occurs
      · rw [← writable, writable_record, writable_record, List.forall_mem_append, and_iff_left]
        exact fun entry listed => (last entry listed).writable
  · rw [withSeries.eq_def, Bool.eq_false_iff.mpr repeated]
    refine ⟨?_, finite, bounds, writable⟩
    cases bare with
    | name text => exact .name text
    | object base => exact .object base _

end

/-- The entry of an item: the data of its type among other fields, which can all be written. -/
inductive EntryOf (item : Item) : Data → Prop where
  | mk {type : Data} {before after : List (String × Data)} (typed : Normal.type .standard item.draft = .ok type)
      (front : ∀ entry ∈ before, Written entry.2) (back : ∀ entry ∈ after, Written entry.2) :
      EntryOf item (.record (before ++ ("type", type) :: after))

section
variable {kind : Kind} {items : List Item} {areFields : Bool} {list : List Data} {shape : Shape} {name : String}
  {tag : Option Int} {isOptional : Bool} {entry : Data}

theorem context_written (fits : NumberFits readRules tag) : ∀ entry ∈ context (orNull .int tag), Written entry.2 := by
  cases tag with
  | none => exact List.forall_mem_nil _
  | some n =>
    change ∀ entry ∈ (if 0 ≤ n && n ≤ maxContext then [("context", Data.int n)] else []), Written entry.2
    split
    · simpa using written_int (fits n rfl).2
    · exact List.forall_mem_nil _

theorem comment_written (text : Option String) : ∀ entry ∈ comment (orNull .text text), Written entry.2 := by
  rw [Normal.comment]
  split
  next holds =>
    cases text with
    | none => cases holds
    | some text => exact List.forall_mem_singleton.mpr (written_text text)
  next => exact List.forall_mem_nil _

theorem entryOf_made {item : Item} {holds : Item → Data → Prop}
    (entryMade : EntryMade readRules .standard areFields holds item entry) : EntryOf item entry := by
  obtain ⟨tagged, typed, -⟩ := entryMade
  rw [memberEntry, List.append_assoc, List.append_assoc]
  refine @EntryOf.mk item _ [("alias", .text item.name), ("name", .text (Name.ofItem item.name))] _ typed ?_ ?_
  · simpa using ⟨written_text item.name, written_text (Name.ofItem item.name)⟩
  · change ∀ entry ∈ context (orNull .int item.number) ++ (_ ++ comment (orNull .text item.comment)), Written entry.2
    rw [List.forall_mem_append, List.forall_mem_append]
    refine ⟨context_written tagged, ?_, comment_written item.comment⟩
    cases areFields with
    | false => exact List.forall_mem_nil _
    | true => simpa using written_bool item.optional

theorem members_entries (complex : kind.isSimple = false) (each : ∀ item ∈ items, ItemFits readRules kind item)
    (made : members .standard areFields (Item.listDraft items) = .ok list) :
    (∀ entry ∈ list, ∃ item ∈ items, EntryOf item entry) ∧ ∀ item ∈ items, ∃ entry ∈ list, EntryOf item entry := by
  have entries := @members_made _ _ _ _ _ _ (fun _ _ => True) complex each (fun _ _ _ _ _ _ _ _ _ => trivial) made
  clear made each
  induction entries with
  | nil => exact ⟨List.forall_mem_nil _, List.forall_mem_nil _⟩
  | cons first _ ih =>
    have entryOf := entryOf_made first
    obtain ⟨listed, found⟩ := ih
    constructor
    · refine List.forall_mem_cons.mpr ⟨⟨_, List.mem_cons_self, entryOf⟩, ?_⟩
      intro entry member
      obtain ⟨item, inside, entryOf⟩ := listed entry member
      exact ⟨item, List.mem_cons_of_mem _ inside, entryOf⟩
    · refine List.forall_mem_cons.mpr ⟨⟨_, List.mem_cons_self, entryOf⟩, ?_⟩
      intro item member
      obtain ⟨entry, inside, entryOf⟩ := found item member
      exact ⟨entry, List.mem_cons_of_mem _ inside, entryOf⟩

theorem EntryOf.recorded (entryOf : EntryOf (member name tag isOptional shape) entry)
    (proper : isItemName name.toList = true)
    (recorded : ∀ data, type .standard (member name tag isOptional shape).draft = .ok data → Recorded name shape data) :
    AllFinite entry ∧ ShowsBounds shape entry ∧ (entry.isWritable = true ↔ ¬ Overfull shape) := by
  obtain ⟨typed, front, back⟩ := entryOf
  obtain ⟨-, finite, bounds, writable⟩ := recorded _ typed
  obtain ⟨whole, same⟩ := @record_but _ _ "type" _ front back finite
  rw [unwritable_item proper] at writable
  exact ⟨whole, bounds.inside (occurs_record "type" (List.mem_append_right _ List.mem_cons_self) .here), same.trans writable⟩

theorem members_recorded (complex : kind.isSimple = false) (bare : shownBounds shape = [])
    (each : ∀ item ∈ shape.items.getD [], ItemFits readRules kind item)
    (recorded : ∀ inner, Inside inner shape → ∀ draft name data, DraftOf draft name inner → ShapeFits readRules inner →
      type .standard draft = .ok data → Recorded name inner data)
    (made : members .standard areFields (Item.listDraft (shape.items.getD [])) = .ok list) :
    AllFinite (.array list) ∧ ShowsBounds shape (.array list) ∧
      ((Data.array list).isWritable = true ↔ ¬ Overfull shape) := by
  obtain ⟨listed, found⟩ := members_entries complex each made
  have outward : ∀ entry ∈ list, ∃ inner, Inside inner shape ∧ AllFinite entry ∧
      (entry.isWritable = true ↔ ¬ Overfull inner) := by
    intro entry member
    obtain ⟨item, inside, entryOf⟩ := listed entry member
    obtain ⟨name, tag, isOptional, inner, rfl, proper, -, fits⟩ := (each item inside).member_of_complex complex
    have within := inside_of_listed rfl inside
    obtain ⟨finite, -, writable⟩ := entryOf.recorded proper fun data typed =>
      recorded inner within _ name data (member_draft name tag isOptional inner) fits typed
    exact ⟨inner, within, finite, writable⟩
  have inward : ∀ inner, Inside inner shape → ∃ entry ∈ list, ShowsBounds inner entry ∧
      (entry.isWritable = true ↔ ¬ Overfull inner) := by
    intro inner within
    obtain ⟨name, tag, isOptional, inside⟩ := within.listed
    obtain ⟨entry, member, entryOf⟩ := found _ inside
    obtain ⟨other, _, _, own, same, proper, -, fits⟩ := (each _ inside).member_of_complex complex
    have named : name = other := congrArg Item.name same
    subst named
    rw [← member_shape same] at fits
    obtain ⟨-, bounds, writable⟩ := entryOf.recorded proper fun data typed =>
      recorded inner within _ name data (member_draft name tag isOptional inner) fits typed
    exact ⟨entry, member, bounds, writable⟩
  refine ⟨?_, ?_, ?_⟩
  · rw [allFinite_array]
    intro entry member
    obtain ⟨inner, -, finite, -⟩ := outward entry member
    exact finite
  · apply showsBounds_of
    · rw [bare]
      exact List.forall_mem_nil _
    · intro inner within
      obtain ⟨entry, member, bounds, -⟩ := inward inner within
      exact bounds.inside (.item member .here)
  · rw [writable_array]
    constructor
    · intro all overfull
      rcases overfull_iff.mp overfull with ⟨item, inside, untyped, -⟩ | ⟨inner, within, deeper⟩
      · obtain ⟨name, tag, isOptional, inner, rfl, -⟩ := (each item inside).member_of_complex complex
        cases untyped
      · obtain ⟨entry, member, -, writable⟩ := inward inner within
        exact writable.mp (all entry member) deeper
    · intro fitting entry member
      obtain ⟨inner, within, -, writable⟩ := outward entry member
      apply writable.mpr
      intro deeper
      exact fitting (overfull_iff.mpr (.inr ⟨inner, within, deeper⟩))

end

section
variable {draft : Draft} {name : String} {shape : Shape} {data : Data} {tables : WellKnown → Except Failure Data}

/-- The data of a type without items can be written, if it has the bounds of the type. -/
theorem itemless_contents (itemless : shape.items = none) (bare : IsBare data) (written : Written data)
    (bounds : ∀ limit ∈ shownBounds shape, Occurs limit.data.ofBound data) :
    Based (¬ Unwritable name shape) data ∧ ShowsBounds shape data := by
  constructor
  · refine ⟨bare, written.finite, iff_of_true written.writable ?_⟩
    intro unwritable
    exact not_overfull_itemless itemless unwritable.1
  · apply showsBounds_of bounds
    intro inner inside
    exact absurd inside (not_inside_itemless itemless)

theorem values_contents {kind : Kind} {items : List Item} {data : Data} (simple : kind.isComplex = false)
    (listed : shape.items = some items) (bare : shownBounds shape = []) (each : ∀ item ∈ items, ItemFits readRules kind item) :
    (Overfull shape ↔ ∃ item ∈ items, TooGreat item) ∧ ShowsBounds shape data := by
  have values : ∀ item ∈ shape.items.getD [], item.type = none := by
    rw [listed]
    intro item inside
    obtain ⟨name, number, comment, rfl, -⟩ := (each item inside).value_of_simple simple
    rfl
  constructor
  · rw [overfull_values values, listed]
    rfl
  · apply showsBounds_of
    · rw [bare]
      exact List.forall_mem_nil _
    · intro inner inside
      exact absurd inside (not_inside_values values)

theorem TypeForm.contents (form : TypeForm readRules draft shape tables) (drawn : DraftOf draft name shape)
    (fits : ShapeFits readRules shape) (made : tables .standard = .ok data)
    (recorded : ∀ inner, Inside inner shape → ∀ draft name data, DraftOf draft name inner → ShapeFits readRules inner →
      type .standard draft = .ok data → Recorded name inner data) :
    Based (¬ Unwritable name shape) data ∧ ShowsBounds shape data := by
  obtain ⟨-, -, -, sizes, ranges, -, -⟩ := fits
  cases form with
  | plain bare itemless =>
    cases made
    apply itemless_contents itemless (.name _) (written_text _)
    rw [bare]
    exact List.forall_mem_nil _
  | limited given shown itemless =>
    have sound := ranges.sound given
    obtain ⟨_, minimum, made⟩ := of_bind_ok made
    obtain ⟨_, maximum, made⟩ := of_bind_ok made
    cases made
    obtain ⟨rfl, low⟩ := bound_written minimum sound.least sound.first
    obtain ⟨rfl, high⟩ := bound_written maximum sound.greatest sound.second
    apply itemless_contents itemless
    · exact .object _ (by simp)
    · rw [written_record]
      simp only [List.forall_mem_cons, List.not_mem_nil, false_implies, implies_true, and_true]
      exact ⟨written_text _, low, high⟩
    · rw [shown]
      simp only [List.forall_mem_cons, List.not_mem_nil, false_implies, implies_true, and_true]
      exact ⟨occurs_record "minimum" (by simp) .here, occurs_record "maximum" (by simp) .here⟩
  | sized given shown itemless =>
    obtain ⟨length, known, made⟩ := of_bind_ok made
    cases made
    obtain ⟨written, bounds⟩ := length_written (sizes.sound given) known
    apply itemless_contents itemless
    · exact .object _ (by simp)
    · exact written_pair.mpr ⟨written_text _, written⟩
    · rw [shown]
      intro limit listed
      exact occurs_record "length" (by simp) (bounds limit listed)
  | bits kind listed bare each =>
    obtain ⟨none, finite, writable⟩ := bitString_based drawn each made
    obtain ⟨overfull, bounds⟩ := values_contents rfl listed bare each
    refine ⟨⟨none, finite, ?_⟩, bounds⟩
    rw [writable, unwritable_iff (by simp [kind]), overfull]
  | values kind listed bare each =>
    obtain ⟨none, finite, writable⟩ := enumerated_based drawn each made
    obtain ⟨overfull, bounds⟩ := values_contents rfl listed bare each
    refine ⟨⟨none, finite, ?_⟩, bounds⟩
    rw [writable, Unwritable, overfull, kind]
    simp
  | @members base key areFields kind items other complex known listed bare each =>
    obtain ⟨list, entries, made⟩ := of_bind_ok made
    cases made
    subst listed
    obtain ⟨finite, bounds, writable⟩ := members_recorded complex bare each recorded entries
    obtain ⟨whole, same⟩ := @record_but [("base", .text base)] [] key _ (by simpa using written_text base) (List.forall_mem_nil _) finite
    refine ⟨⟨.object _ (by simpa using other), whole, ?_⟩, bounds.inside (occurs_record key (by simp) .here)⟩
    rw [unwritable_iff]
    · exact same.trans writable
    · intro enumerated
      rw [known] at enumerated
      cases enumerated
      cases complex

/-- The data of every type of an accepted text. -/
theorem type_recorded (shape : Shape) : ∀ draft name data, DraftOf draft name shape → ShapeFits readRules shape →
    type .standard draft = .ok data → Recorded name shape data := by
  induction shape using nested_induction with
  | step shape ih =>
    intro draft name data drawn fits made
    obtain ⟨base, form, same⟩ := type_form drawn fits
    rw [same] at made
    obtain ⟨bare, known, made⟩ := of_bind_ok made
    cases made
    obtain ⟨based, bounds⟩ := form.contents drawn fits known ih
    rw [drawn.series]
    obtain ⟨-, -, series, -, -, -, -⟩ := fits
    exact based.recorded bounds series

end

end TypeCatalog.Proofs
