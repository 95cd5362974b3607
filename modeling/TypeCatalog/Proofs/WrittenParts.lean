import TypeCatalog.Proofs.Attempts
import TypeCatalog.Proofs.ConfigurationSafety
import TypeCatalog.Proofs.DataParts
import TypeCatalog.Proofs.NumberedItems

/-! Which parts of a record can be written. Integers that were read can be; the number after the greatest one of an
enumeration or a bit string was not read, and may have a digit too many. -/

namespace TypeCatalog.Proofs
open TypeCatalog.Normal Source Text

def readRules : Rules where
  number n := (Data.int n).isWritable = true
  bound limit := limit.data.isWritable = true

private theorem bound_writable {text : List Char} {limit : Bound} (denotes : Denotes text limit)
    (short : legible text = true) : limit.data.isWritable = true := by
  cases denotes with
  | lowest | highest | fraction => rfl
  | @whole mark digits negative sign proper =>
    rw [legible_whole sign proper, decide_eq_true_eq] at short
    have few := digitsValue_lt short
    rw [Bound.data, writable_int]
    cases negative with
    | false => simpa using few
    | true => simpa using few

instance : Admits readRules where
  name _ := trivial
  reference _ := trivial
  number numeral := by
    change (Data.int _).isWritable = true
    rw [writable_int, numeral.value, Int.natAbs_natCast]
    exact digitsValue_lt numeral.short
  bound := bound_writable
  comment := id

/-- Data that can be written as a whole. -/
structure Written (data : Data) : Prop where
  finite : AllFinite data
  writable : data.isWritable = true

section
variable {entries : List (String × Data)} {items : List Data} {data : Data}

theorem written_record : Written (.record entries) ↔ ∀ entry ∈ entries, Written entry.2 := by
  constructor
  · intro written entry listed
    exact ⟨allFinite_record.mp written.finite entry listed, writable_record.mp written.writable entry listed⟩
  · intro each
    exact ⟨allFinite_record.mpr fun entry listed => (each entry listed).finite,
      writable_record.mpr fun entry listed => (each entry listed).writable⟩

theorem written_pair {first second : String × Data} :
    Written (.record [first, second]) ↔ Written first.2 ∧ Written second.2 := by
  rw [written_record, List.forall_mem_cons, List.forall_mem_singleton]

theorem written_array (each : ∀ item ∈ items, Written item) : Written (.array items) :=
  ⟨allFinite_array.mpr fun item listed => (each item listed).finite,
    writable_array.mpr fun item listed => (each item listed).writable⟩

theorem written_text (text : String) : Written (.text text) := ⟨allFinite_text text, rfl⟩

theorem written_bool (value : Bool) : Written (.bool value) := ⟨allFinite_bool value, rfl⟩

theorem written_int {n : Int} (writable : (Data.int n).isWritable = true) : Written (.int n) := ⟨allFinite_int n, writable⟩

theorem written_natural {n : Nat} (few : n < Nat.pow 10 digitLimit) : Written (.int n) :=
  written_int (writable_int.mpr few)

end

section
variable {low high limit : Bound} {shown : Data}

theorem AtMost.places (ordered : AtMost low high) :
    low.data.place?.isSome = true ∧ high.data.place?.isSome = true := by
  simp only [AtMost, Bound.lt, Data.isLess, Data.levelWith] at ordered
  cases first : low.data.place? with
  | none => simp [first] at ordered
  | some least =>
    cases second : high.data.place? with
    | none => simp [first, second] at ordered
    | some greatest => exact ⟨rfl, rfl⟩

/-- A bound is shown as documents spell it, so it is never infinite. -/
theorem bound_written (known : bound limit.data = .ok shown) (placed : limit.data.place?.isSome = true)
    (writable : limit.data.isWritable = true) : shown = limit.data.ofBound ∧ Written shown := by
  cases limit with
  | int n =>
    rw [Bound.data, bound] at known
    split at known
    · cases known
    · cases known
      exact ⟨rfl, written_int writable⟩
  | real value =>
    cases known
    refine ⟨rfl, ?_⟩
    cases value with
    | nan => cases placed
    | infinite negative => cases negative <;> exact written_text _
    | finite => exact ⟨allFinite_real.mpr rfl, rfl⟩

/-- A range that was read, whose bounds have places and can be written. -/
structure SoundRange (range : Range) : Prop where
  least : range.min.data.place?.isSome = true
  greatest : range.max.data.place?.isSome = true
  first : range.min.data.isWritable = true
  second : range.max.data.isWritable = true

theorem RangeFits.sound {range : Option Range} (fits : RangeFits readRules range) {own : Range} (given : range = some own) :
    SoundRange own := by
  obtain ⟨first, second, ordered⟩ := fits own given
  obtain ⟨least, greatest⟩ := ordered.places
  exact ⟨least, greatest, first, second⟩

theorem length_written {size : Range} (sound : SoundRange size) (made : length size.span = .ok shown) :
    Written shown ∧ ∀ limit ∈ (if size.min.data.levelWith size.max.data then [size.min] else [size.min, size.max]),
      Occurs limit.data.ofBound shown := by
  have number (limit : Bound) : limit.data.isNumber = true := by cases limit <;> rfl
  by_cases level : size.min.data.levelWith size.max.data = true
  · simp only [length, Range.span, number, level, Bool.and_self, if_true] at made
    obtain ⟨rfl, written⟩ := bound_written made sound.least sound.first
    rw [if_pos level, List.forall_mem_singleton]
    exact ⟨written, .here⟩
  · simp only [length, Range.span, number, level, Bool.and_self, if_true] at made
    obtain ⟨_, minimum, made⟩ := of_bind_ok made
    obtain ⟨_, maximum, made⟩ := of_bind_ok made
    cases made
    obtain ⟨rfl, low⟩ := bound_written minimum sound.least sound.first
    obtain ⟨rfl, high⟩ := bound_written maximum sound.greatest sound.second
    rw [if_neg level, List.forall_mem_cons, List.forall_mem_singleton]
    exact ⟨written_pair.mpr ⟨low, high⟩, occurs_record "minimum" (by simp) .here, occurs_record "maximum" (by simp) .here⟩

end

/-- A value with a number after which comes one that cannot be written. -/
def TooGreat (item : Item) : Prop := item.type = none ∧ ∃ n, item.number = some n ∧ writeInt? (n + 1) = none

section
variable {items : List Item} {kind : Kind}

/-- The least number of values that were read can be written, and so can the one after the greatest of them, unless that
one is too great. -/
theorem limits_written {low high : Int} (simple : kind.isComplex = false)
    (each : ∀ item ∈ items, ItemFits readRules kind item) (least : IsLeast (numbersOf items) low)
    (greatest : IsGreatest (numbersOf items) high) :
    Written (.int low) ∧ ((Data.int (high + 1)).isWritable = true ↔ ¬ ∃ item ∈ items, TooGreat item) := by
  have known : ∀ n ∈ numbersOf items, 0 ≤ n ∧ (Data.int n).isWritable = true := by
    intro n member
    obtain ⟨item, inside, number⟩ := member
    obtain ⟨name, own, comment, rfl, -, natural, writable⟩ := (each item inside).value_of_simple simple
    cases number
    exact ⟨natural, writable⟩
  refine ⟨written_int (known low least.1).2, ?_, ?_⟩
  · intro writable great
    obtain ⟨item, inside, -, m, number, great⟩ := great
    have below := greatest.2 ⟨item, inside, number⟩
    have natural := (known m ⟨item, inside, number⟩).1
    have few := writable_int.mp writable
    have smaller : (Data.int (m + 1)).isWritable = true := writable_int.mpr (by omega)
    rw [Data.isWritable, great] at smaller
    cases smaller
  · intro missing
    obtain ⟨item, inside, number⟩ := greatest.1
    cases great : writeInt? (high + 1) with
    | none =>
      have untyped : item.type = none := by
        obtain ⟨name, own, comment, rfl, -⟩ := (each item inside).value_of_simple simple
        rfl
      exact absurd ⟨item, inside, untyped, high, number, great⟩ missing
    | some text =>
      rw [Data.isWritable, great]
      rfl

theorem numbered_written {sorted : List Item} (simple : kind.isComplex = false)
    (each : ∀ item ∈ items, ItemFits readRules kind item) (arranged : Arranged place items sorted) (key : String) :
    Written (.array (sorted.map (numberedEntry key))) := by
  apply written_array
  intro entry listed
  obtain ⟨item, inside, rfl⟩ := List.mem_map.mp listed
  obtain ⟨name, number, comment, rfl, -, -, writable⟩ :=
    (each item (arranged.perm.mem_iff.mp inside)).value_of_simple simple
  rw [numberedEntry, written_record]
  simp only [List.forall_mem_cons, List.not_mem_nil, false_implies, implies_true, and_true]
  exact ⟨written_text _, written_text _, written_int writable⟩

end

section
variable {before after : List (String × Data)} {key name : String} {value data entry : Data} {fields : Fields}

/-- Where all other entries can be written, a record can be if one value can. -/
theorem record_but (front : ∀ entry ∈ before, Written entry.2) (back : ∀ entry ∈ after, Written entry.2)
    (finite : AllFinite value) : AllFinite (.record (before ++ (key, value) :: after)) ∧
      ((Data.record (before ++ (key, value) :: after)).isWritable = true ↔ value.isWritable = true) := by
  rw [allFinite_record, writable_record, List.forall_mem_append, List.forall_mem_append, List.forall_mem_cons,
    List.forall_mem_cons]
  refine ⟨⟨fun entry listed => (front entry listed).finite, finite, fun entry listed => (back entry listed).finite⟩, ?_⟩
  constructor
  · intro writable
    exact writable.2.1
  · intro writable
    exact ⟨fun entry listed => (front entry listed).writable, writable, fun entry listed => (back entry listed).writable⟩

theorem Written.field (written : Written (.object fields)) (found : fields.find? name = some value) : Written value := by
  obtain ⟨field, listed, rfl⟩ := field_of_find found
  exact ⟨allFinite_object.mp written.finite field listed, writable_object written.writable field listed⟩

theorem standard_written :
    (∀ name entry, WellKnown.standard.enumerated.find? name = some entry → Written entry) ∧
      ∀ name entry, WellKnown.standard.bitString.find? name = some entry → Written entry := by
  have checked (data : Data) (finite : Yaml.checkFinite data = .ok ()) (writable : data.isWritable = true) :
      Written data := ⟨(checkFinite_ok data).mp finite, writable⟩
  have enumerated : ∀ field ∈ WellKnown.standard.enumerated, Written field.2 := by
    simp only [WellKnown.standard, List.forall_mem_cons]
    exact ⟨checked _ rfl rfl, checked _ rfl rfl, checked _ rfl rfl, checked _ rfl rfl, checked _ rfl rfl, checked _ rfl rfl,
      checked _ rfl rfl, checked _ rfl rfl, checked _ rfl rfl, checked _ rfl rfl, checked _ rfl rfl, List.forall_mem_nil _⟩
  have bitString : ∀ field ∈ WellKnown.standard.bitString, Written field.2 := by
    simp only [WellKnown.standard, List.forall_mem_cons]
    exact ⟨checked _ rfl rfl, List.forall_mem_nil _⟩
  constructor
  · intro name entry found
    obtain ⟨field, inside, rfl⟩ := field_of_find found
    exact enumerated field inside
  · intro name entry found
    obtain ⟨field, inside, rfl⟩ := field_of_find found
    exact bitString field inside

theorem copied_written {more : List (String × Data)} (other : "series" ≠ name) (object : ObjectIfAny fields name)
    (written : Written (.object fields)) (made : copied name (.object fields) = .ok more) :
    "series" ∉ more.map (·.1) ∧ ∀ entry ∈ more, Written entry.2 := by
  have field : (Data.object fields).find? name = fields.find? name := rfl
  rw [copied, field] at made
  cases found : fields.find? name with
  | none =>
    rw [found] at made
    cases made
    exact ⟨List.not_mem_nil, List.forall_mem_nil _⟩
  | some value =>
    rw [found] at made
    obtain ⟨inner, rfl⟩ := object value found
    cases made
    exact ⟨by simpa using other, by simpa using written.field found⟩

/-- Data of a type: a name, or an object over a base. -/
inductive IsType : Data → Prop where
  | name (text : String) : IsType (.text text)
  | object (base : String) (more : List (String × Data)) : IsType (.record (("base", .text base) :: more))

inductive IsBare : Data → Prop where
  | name (text : String) : IsBare (.text text)
  | object (base : String) {more : List (String × Data)} (free : "series" ∉ more.map (·.1)) :
      IsBare (.record (("base", .text base) :: more))

/-- A type without its series, which can be written on a condition. -/
structure Based (condition : Prop) (data : Data) : Prop where
  bare : IsBare data
  finite : AllFinite data
  writable : data.isWritable = true ↔ condition

end

section
variable {draft : Draft} {name : String} {first : Item} {rest : List Item} {shape : Shape} {data : Data}

theorem bitString_based (drawn : DraftOf draft name shape)
    (each : ∀ item ∈ first :: rest, ItemFits readRules .bitString item)
    (made : bitString .standard draft first.draft (Item.listDraft rest) = .ok data) :
    Based (¬ ∃ item ∈ first :: rest, TooGreat item) data := by
  obtain ⟨sorted, low, high, arranged, least, greatest, record⟩ :=
    bitString_record drawn.toCarries (numbered_of_simple rfl each) made
  have writable := (limits_written rfl each least greatest).2
  have front : ∀ entry ∈ [("base", Data.text "bit-string"), ("bits", .array (sorted.map (numberedEntry "position"))),
      ("extensible", .bool shape.extensible)], Written entry.2 := by
    simp only [List.forall_mem_cons, List.not_mem_nil, false_implies, implies_true, and_true]
    exact ⟨written_text _, numbered_written rfl each arranged _, written_bool _⟩
  cases record with
  | own =>
    obtain ⟨finite, whole⟩ := @record_but _ [] "length" _ front (List.forall_mem_nil _) (allFinite_int (high + 1))
    exact ⟨.object _ (by simp), finite, whole.trans writable⟩
  | @known entry maximum more listed limited copies =>
    have found := (Option.filter_eq_some_iff.mp listed).1
    have written := standard_written.2 name entry found
    cases standard_usable.bitString name entry found with
    | @mk fields other known proprietary =>
      obtain ⟨free, back⟩ := copied_written (by decide) proprietary written copies
      rw [required, known] at limited
      cases limited
      have maximal : ∀ entry ∈ [("maximum", maximum)], Written entry.2 := by simpa using written.field known
      obtain ⟨span, spanWhole⟩ := @record_but [] _ "minimum" _ (List.forall_mem_nil _) maximal (allFinite_int (high + 1))
      obtain ⟨finite, whole⟩ := @record_but _ _ "length" _ front back span
      refine ⟨.object _ ?_, finite, whole.trans (spanWhole.trans writable)⟩
      change "series" ∉ (("bits", _) :: ("extensible", _) :: ("length", _) :: more).map (·.1)
      rw [List.map_cons, List.map_cons, List.map_cons]
      simp [-List.mem_map, free]

/-- Numbers in the sentence about reserved values were read, so they can be written. -/
theorem reservedSpans_written {drafts : List Draft} {standard proprietary : Data}
    (found : reservedSpans draft drafts = .ok (some (standard, proprietary))) : Written standard ∧ Written proprietary := by
  have few {n : Nat} (known : ∃ digits, readNat? digits = some n) : Written (.int n) := by
    obtain ⟨digits, read⟩ := known
    rw [readNat?] at read
    split at read
    next short =>
      cases read
      exact written_natural (digitsValue_lt short)
    next => cases read
  obtain ⟨low, high, lowOthers, highOthers, -, -, read, rfl, rfl⟩ := reservedSpans_found found
  simp only [List.forall_mem_cons] at read
  obtain ⟨first, second, third, fourth, -⟩ := read
  exact ⟨written_pair.mpr ⟨few first, few second⟩, written_pair.mpr ⟨few third, few fourth⟩⟩

theorem unspecified_written : Written unspecified := written_pair.mpr ⟨written_int rfl, written_int rfl⟩

/-- A well known enumeration has the range of its entry, which does not depend on its values. -/
theorem wellKnown_based {values : List Data} {entry range : Data} {fields : Fields}
    {standard proprietary : List (String × Data)} (all : Written (.array values)) (usable : EnumeratedEntry entry)
    (written : Written entry) (ranged : required "range" entry = .ok range) (object : range.toFields = .ok fields)
    (first : copied "standard" entry = .ok standard) (second : copied "proprietary" entry = .ok proprietary) :
    Based True (.record ([("base", .text "enumerated"), ("values", .array values)] ++
      [("extensible", .bool true), ("range", .object fields)] ++ standard ++ proprietary)) := by
  cases usable with
  | @mk own limits known standardObject proprietaryObject =>
    obtain ⟨free, copies⟩ := copied_written (by decide) standardObject written first
    obtain ⟨free', copies'⟩ := copied_written (by decide) proprietaryObject written second
    rw [required, known] at ranged
    cases ranged
    cases object
    have whole : Written (.record ([("base", .text "enumerated"), ("values", .array values)] ++
        [("extensible", .bool true), ("range", .object fields)] ++ standard ++ proprietary)) := by
      simp only [written_record, List.forall_mem_append, List.forall_mem_cons, List.not_mem_nil, false_implies,
        implies_true, and_true]
      exact ⟨⟨⟨⟨written_text _, all⟩, written_bool _, written.field known⟩, copies⟩, copies'⟩
    refine ⟨.object _ ?_, whole.finite, iff_of_true whole.writable trivial⟩
    change "series" ∉ (("values", _) :: ("extensible", _) :: ("range", _) :: (standard ++ proprietary)).map (·.1)
    rw [List.map_cons, List.map_cons, List.map_cons, List.map_append]
    simp [-List.mem_map, free, free']

/-- Any other enumeration has the range of its values, up to the number after the greatest one. -/
theorem ranged_based {condition : Prop} {values : List Data} {low high : Int} {more : List (String × Data)}
    (extensible : Bool) (all : Written (.array values)) (lowest : Written (.int low))
    (writable : (Data.int (high + 1)).isWritable = true ↔ condition) (free : "series" ∉ more.map (·.1))
    (back : ∀ entry ∈ more, Written entry.2) :
    Based condition (.record ([("base", .text "enumerated"), ("values", .array values), ("extensible", .bool extensible)] ++
      ("range", .limits (.int low) (.int (high + 1))) :: more)) := by
  have range : AllFinite (.limits (.int low) (.int (high + 1))) ∧
      ((Data.limits (.int low) (.int (high + 1))).isWritable = true ↔ (Data.int (high + 1)).isWritable = true) :=
    @record_but [_] [] "maximum" _ (by simpa using lowest) (List.forall_mem_nil _) (allFinite_int (high + 1))
  have front : ∀ entry ∈ [("base", Data.text "enumerated"), ("values", .array values), ("extensible", .bool extensible)],
      Written entry.2 := by
    simp only [List.forall_mem_cons, List.not_mem_nil, false_implies, implies_true, and_true]
    exact ⟨written_text _, all, written_bool _⟩
  obtain ⟨finite, whole⟩ := @record_but _ more "range" _ front back range.1
  exact ⟨.object _ (by simpa using free), finite, whole.trans (range.2.trans writable)⟩

theorem enumerated_based (drawn : DraftOf draft name shape)
    (each : ∀ item ∈ first :: rest, ItemFits readRules .enumerated item)
    (made : enumerated .standard draft first.draft (Item.listDraft rest) = .ok data) :
    Based (¬ ((∃ item ∈ first :: rest, TooGreat item) ∧ WellKnown.standard.enumerated.find? name = none)) data := by
  obtain ⟨sorted, low, high, arranged, least, greatest, record⟩ :=
    enumerated_record drawn.toCarries (numbered_of_simple rfl each) made
  obtain ⟨lowest, writable⟩ := limits_written rfl each least greatest
  have all := numbered_written rfl each arranged "constant"
  have absent (unlisted : (WellKnown.standard.enumerated.find? name).filter Data.holds = none) :
      WellKnown.standard.enumerated.find? name = none := by
    cases found : WellKnown.standard.enumerated.find? name with
    | none => rfl
    | some entry =>
      have holding := (standard_usable.enumerated name entry found).holds
      simp [found, holding] at unlisted
  cases record with
  | @known entry range fields standard proprietary listed ranged object first second =>
    have found := (Option.filter_eq_some_iff.mp listed).1
    have written := standard_written.1 name entry found
    have usable := standard_usable.enumerated name entry found
    simpa [found] using wellKnown_based all usable written ranged object first second
  | closed unlisted =>
    rw [absent unlisted]
    simpa using ranged_based _ all lowest writable List.not_mem_nil (List.forall_mem_nil _)
  | @opened spans unlisted isOpen reserved =>
    rw [absent unlisted]
    simp only [and_true]
    cases spans with
    | none => exact ranged_based _ all lowest writable (by simp [spanFields]) (by simpa [spanFields] using unspecified_written)
    | some spans =>
      exact ranged_based _ all lowest writable (by simp [spanFields]) (by simpa [spanFields] using reservedSpans_written reserved)

end

end TypeCatalog.Proofs
