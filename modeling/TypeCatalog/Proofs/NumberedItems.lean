import TypeCatalog.Proofs.ItemNumbers
import TypeCatalog.Proofs.TableScope

/-! Records of enumerations and bit strings. Their items are listed by their numbers, and what tables have no entry for has
the limits of its own numbers. -/

namespace TypeCatalog.Proofs
open TypeCatalog.Normal Source

theorem numbered_of_simple {rules : Rules} {kind : Kind} {items : List Item} (simple : kind.isComplex = false)
    (each : ∀ item ∈ items, ItemFits rules kind item) : Numbered items := by
  intro item listed
  obtain ⟨name, number, comment, rfl, -⟩ := (each item listed).value_of_simple simple
  rfl

def spanFields : Option (Data × Data) → List (String × Data)
  | none => [("proprietary", unspecified)]
  | some (standard, proprietary) => [("standard", standard), ("proprietary", proprietary)]

/-- The records that a bit string can have, by its entry in a table. -/
inductive BitStringRecord (table : Fields) (name : String) (extensible : Bool) (bits : Data) (high : Int) : Data → Prop where
  | own (unlisted : (table.find? name).filter Data.holds = none) :
      BitStringRecord table name extensible bits high (.record ([("base", .text "bit-string"), ("bits", bits),
        ("extensible", .bool extensible)] ++ [("length", .int (high + 1))]))
  | known {entry maximum : Data} {more : List (String × Data)} (listed : (table.find? name).filter Data.holds = some entry)
      (limited : required "maximum" entry = .ok maximum) (copies : copied "proprietary" entry = .ok more) :
      BitStringRecord table name extensible bits high (.record ([("base", .text "bit-string"), ("bits", bits),
        ("extensible", .bool extensible)] ++ [("length", .limits (.int (high + 1)) maximum)] ++ more))

/-- The records that an enumeration can have, by its entry in a table. -/
inductive EnumeratedRecord (table : Fields) (draft : Draft) (name : String) (extensible : Bool) (items : List Item)
    (values : Data) (low high : Int) : Data → Prop where
  | closed (unlisted : (table.find? name).filter Data.holds = none) (isClosed : extensible = false) :
      EnumeratedRecord table draft name extensible items values low high (.record ([("base", .text "enumerated"),
        ("values", values)] ++ [("extensible", .bool extensible), ("range", .limits (.int low) (.int (high + 1)))]))
  | opened {spans : Option (Data × Data)} (unlisted : (table.find? name).filter Data.holds = none)
      (isOpen : extensible = true) (reserved : reservedSpans draft (Item.listDraft items) = .ok spans) :
      EnumeratedRecord table draft name extensible items values low high (.record ([("base", .text "enumerated"),
        ("values", values)] ++ [("extensible", .bool extensible), ("range", .limits (.int low) (.int (high + 1)))] ++
          spanFields spans))
  | known {entry range : Data} {fields : Fields} {standard proprietary : List (String × Data)}
      (listed : (table.find? name).filter Data.holds = some entry) (ranged : required "range" entry = .ok range)
      (object : range.toFields = .ok fields) (first : copied "standard" entry = .ok standard)
      (second : copied "proprietary" entry = .ok proprietary) :
      EnumeratedRecord table draft name extensible items values low high (.record ([("base", .text "enumerated"),
        ("values", values)] ++ [("extensible", .bool true), ("range", .object fields)] ++ standard ++ proprietary))

section
variable {tables : WellKnown} {draft : Draft} {name : String} {shape : Shape} {first : Item} {rest : List Item}
  {data : Data}

theorem bitString_record (carried : Carries draft name shape) (numbered : Numbered (first :: rest))
    (made : bitString tables draft first.draft (Item.listDraft rest) = .ok data) : ∃ sorted low high,
      Arranged place (first :: rest) sorted ∧ IsLeast (numbersOf (first :: rest)) low ∧
      IsGreatest (numbersOf (first :: rest)) high ∧ BitStringRecord tables.bitString name shape.extensible
        (.array (sorted.map (numberedEntry "position"))) high data := by
  obtain ⟨sorted, arranged, entries⟩ := numbered_arranged numbered
  obtain ⟨low, high, extent, least, greatest⟩ := extent_numbers numbered
  refine ⟨sorted, low, high, arranged, least, greatest, ?_⟩
  have bits := entries "position"
  rw [Item.listDraft] at bits
  rw [bitString, extent, bits, carried.name, carried.extensible, entryFor_text] at made
  simp only [ok_bind] at made
  cases found : (tables.bitString.find? name).filter Data.holds with
  | none =>
    rw [found] at made
    cases made
    exact .own found
  | some entry =>
    rw [found] at made
    obtain ⟨maximum, limited, made⟩ := of_bind_ok made
    obtain ⟨more, copies, made⟩ := of_bind_ok made
    cases made
    exact .known found limited copies

theorem enumerated_record (carried : Carries draft name shape) (numbered : Numbered (first :: rest))
    (made : enumerated tables draft first.draft (Item.listDraft rest) = .ok data) : ∃ sorted low high,
      Arranged place (first :: rest) sorted ∧ IsLeast (numbersOf (first :: rest)) low ∧
      IsGreatest (numbersOf (first :: rest)) high ∧ EnumeratedRecord tables.enumerated draft name shape.extensible
        (first :: rest) (.array (sorted.map (numberedEntry "constant"))) low high data := by
  obtain ⟨sorted, arranged, entries⟩ := numbered_arranged numbered
  obtain ⟨low, high, extent, least, greatest⟩ := extent_numbers numbered
  refine ⟨sorted, low, high, arranged, least, greatest, ?_⟩
  have values := entries "constant"
  rw [Item.listDraft] at values
  rw [enumerated, extent, values, carried.name, carried.extensible, entryFor_text] at made
  simp only [ok_bind] at made
  cases found : (tables.enumerated.find? name).filter Data.holds with
  | some entry =>
    rw [found] at made
    obtain ⟨range, ranged, made⟩ := of_bind_ok made
    obtain ⟨fields, object, made⟩ := of_bind_ok made
    obtain ⟨standard, first, made⟩ := of_bind_ok made
    obtain ⟨proprietary, second, made⟩ := of_bind_ok made
    cases made
    exact .known found ranged object first second
  | none =>
    rw [found] at made
    dsimp only at made
    split at made
    next shut =>
      cases made
      exact .closed found (by simpa [Data.holds] using shut)
    next opened =>
      obtain ⟨spans, reserved, made⟩ := of_bind_ok made
      have extensible : shape.extensible = true := by simpa [Data.holds] using opened
      rw [← Item.listDraft] at reserved
      cases spans <;> cases made <;> exact .opened found extensible reserved

theorem type_bits (carried : Carries draft name shape) (known : Kind.ofTypeName? shape.type = some .bitString)
    (listed : shape.items = some (first :: rest)) : type tables draft =
      bitString tables draft first.draft (Item.listDraft rest) >>= fun data => pure (withSeries draft.series data) := by
  obtain ⟨name, typeName, number, isOptional, primitive, series, size, range, items, extensible, comment⟩ := draft
  have typed := carried.type
  have drafts := carried.items
  dsimp only at typed drafts
  subst typed drafts
  simp only [type.eq_def, kindOf, known, listed, Item.itemsDraft, Item.listDraft]

theorem type_values (carried : Carries draft name shape) (known : Kind.ofTypeName? shape.type = some .enumerated)
    (listed : shape.items = some (first :: rest)) : type tables draft =
      enumerated tables draft first.draft (Item.listDraft rest) >>= fun data => pure (withSeries draft.series data) := by
  obtain ⟨name, typeName, number, isOptional, primitive, series, size, range, items, extensible, comment⟩ := draft
  have typed := carried.type
  have drafts := carried.items
  dsimp only at typed drafts
  subst typed drafts
  simp only [type.eq_def, kindOf, known, listed, Item.itemsDraft, Item.listDraft]

end

theorem withSeries_find (series : Data) (entries : List (String × Data)) {key : String} (other : key ≠ "series") :
    (withSeries series (.record entries)).find? key = entries.lookup key := by
  have plain : (Data.record entries).find? key = entries.lookup key := find_named entries key
  change (withSeries series (.object (named entries))).find? key = _
  rw [withSeries]
  split
  · exact plain
  · change (Fields.put (.text "series") series (named entries)).get? (.text key) = _
    have apart : (Key.text "series").same (.text key) = false := beq_eq_false_iff_ne.mpr other.symm
    rw [find_put, apart]
    exact plain

theorem reservedSpans_found {draft : Draft} {drafts : List Draft} {standard proprietary : Data}
    (found : reservedSpans draft drafts = .ok (some (standard, proprietary))) :
    ∃ low high lowOthers highOthers : Nat, low ≤ high ∧ lowOthers ≤ highOthers ∧
      (∀ n ∈ [low, high, lowOthers, highOthers], ∃ digits, readNat? digits = some n) ∧
      standard = .valueSpan low high ∧ proprietary = .valueSpan lowOthers highOthers := by
  obtain ⟨lines, -, found⟩ := of_bind_ok found
  cases limits : Reserved.search ([' '].intercalate lines) with
  | none =>
    rw [limits] at found
    cases found
  | some limits =>
    rw [limits] at found
    dsimp only at found
    split at found
    next low high lowOthers highOthers first second third fourth =>
      split at found
      next => cases found
      next ordered =>
        cases found
        rw [Bool.or_eq_true, decide_eq_true_eq, decide_eq_true_eq, not_or, Nat.not_lt, Nat.not_lt] at ordered
        refine ⟨low, high, lowOthers, highOthers, ordered.1, ordered.2, ?_, rfl, rfl⟩
        simp only [List.forall_mem_cons, List.not_mem_nil, false_implies, implies_true, and_true]
        exact ⟨⟨_, first⟩, ⟨_, second⟩, ⟨_, third⟩, _, fourth⟩
    next => cases found

def leafKeys : List String :=
  ["base", "minimum", "maximum", "length", "bits", "values", "extensible", "range", "standard", "proprietary"]

theorem copied_keys {name : String} {entry : Data} {more : List (String × Data)} (made : copied name entry = .ok more) :
    more.map (·.1) ⊆ [name] := by
  rw [copied] at made
  split at made
  · cases made
    exact List.nil_subset _
  · obtain ⟨fields, -, made⟩ := of_bind_ok made
    cases made
    exact List.Subset.refl _

section
variable {table : Fields} {draft : Draft} {name : String} {extensible : Bool} {items : List Item} {list data : Data}
  {low high : Int}

theorem BitStringRecord.keys (record : BitStringRecord table name extensible list high data) :
    ∃ entries, data = .record entries ∧ entries.map (·.1) ⊆ leafKeys := by
  cases record with
  | own => exact ⟨_, rfl, by simp [leafKeys]⟩
  | known _ _ copies =>
    refine ⟨_, rfl, ?_⟩
    rw [List.map_append, List.append_subset]
    exact ⟨by simp [leafKeys], List.Subset.trans (copied_keys copies) (by decide)⟩

theorem EnumeratedRecord.keys (record : EnumeratedRecord table draft name extensible items list low high data) :
    ∃ entries, data = .record entries ∧ entries.map (·.1) ⊆ leafKeys := by
  cases record with
  | closed => exact ⟨_, rfl, by simp [leafKeys]⟩
  | @opened spans =>
    refine ⟨_, rfl, ?_⟩
    cases spans <;> simp [leafKeys, spanFields]
  | known _ _ _ first second =>
    refine ⟨_, rfl, ?_⟩
    rw [List.map_append, List.append_subset, List.map_append, List.append_subset]
    exact ⟨⟨by simp [leafKeys], List.Subset.trans (copied_keys first) (by decide)⟩,
      List.Subset.trans (copied_keys second) (by decide)⟩

end

/-- How a record splits values between the standard and others. Only that of an enumeration which is open to more values
does, with the spans that are documented or else with an empty one. -/
inductive ValueSplit (data : Data) : Bool → Prop where
  | closed (standard : data.find? "standard" = none) (proprietary : data.find? "proprietary" = none) :
      ValueSplit data false
  | documented {low high lowOthers highOthers : Nat} (first : low ≤ high) (second : lowOthers ≤ highOthers)
      (standard : data.find? "standard" = some (.valueSpan low high))
      (proprietary : data.find? "proprietary" = some (.valueSpan lowOthers highOthers)) : ValueSplit data true
  | undocumented (standard : data.find? "standard" = none) (proprietary : data.find? "proprietary" = some unspecified) :
      ValueSplit data true

section
variable {table : Fields} {draft : Draft} {name : String} {extensible : Bool} {items : List Item} {list data : Data}
  {low high : Int}

theorem BitStringRecord.listed (record : BitStringRecord table name extensible list high data) (series : Data) :
    (withSeries series data).find? "bits" = some list := by
  cases record with
  | own | known => exact withSeries_find _ _ (by decide)

theorem BitStringRecord.split (record : BitStringRecord table name extensible list high data)
    (unlisted : (table.find? name).filter Data.holds = none) (series : Data) :
    (withSeries series data).find? "length" = some (.int (high + 1)) ∧ ValueSplit (withSeries series data) false := by
  cases record with
  | own =>
    refine ⟨withSeries_find _ _ (by decide), ?_⟩
    exact .closed (withSeries_find _ _ (by decide)) (withSeries_find _ _ (by decide))
  | known found => simp [found] at unlisted

theorem EnumeratedRecord.listed (record : EnumeratedRecord table draft name extensible items list low high data)
    (series : Data) : (withSeries series data).find? "values" = some list := by
  cases record with
  | closed | opened | known => exact withSeries_find _ _ (by decide)

theorem EnumeratedRecord.split (record : EnumeratedRecord table draft name extensible items list low high data)
    (unlisted : (table.find? name).filter Data.holds = none) (series : Data) :
    (withSeries series data).find? "range" = some (.limits (.int low) (.int (high + 1))) ∧
      ValueSplit (withSeries series data) extensible := by
  cases record with
  | closed _ isClosed =>
    subst isClosed
    refine ⟨withSeries_find _ _ (by decide), ?_⟩
    exact .closed (withSeries_find _ _ (by decide)) (withSeries_find _ _ (by decide))
  | @opened spans _ isOpen reserved =>
    subst isOpen
    refine ⟨withSeries_find _ _ (by decide), ?_⟩
    cases spans with
    | none => exact .undocumented (withSeries_find _ _ (by decide)) (withSeries_find _ _ (by decide))
    | some spans =>
      obtain ⟨standard, proprietary⟩ := spans
      obtain ⟨_, _, _, _, first, second, -, rfl, rfl⟩ := reservedSpans_found reserved
      exact .documented first second (withSeries_find _ _ (by decide)) (withSeries_find _ _ (by decide))
  | known found => simp [found] at unlisted

end

def listKey : Kind → String
  | .bitString => "bits"
  | _ => "values"

def numberKey : Kind → String
  | .bitString => "position"
  | _ => "constant"

def limitKey : Kind → String
  | .bitString => "length"
  | _ => "range"

def ownLimits (low high : Int) : Kind → Data
  | .bitString => .int (high + 1)
  | _ => .limits (.int low) (.int (high + 1))

section
variable {tables : WellKnown} {draft : Draft} {name : String} {shape : Shape} {kind : Kind} {items : List Item}
  {data : Data}

/-- An enumeration or a bit string that has a type lists all of its items, arranged by their numbers. Without an entry in
the tables its limits hold all numbers and no more than they must. -/
theorem type_numbered (carried : Carries draft name shape) (known : Kind.ofTypeName? shape.type = some kind)
    (simple : kind.isSimple = true) (listed : shape.items = some items) (filled : items ≠ []) (numbered : Numbered items)
    (made : type tables draft = .ok data) : ∃ sorted, Arranged place items sorted ∧
      data.find? (listKey kind) = some (.array (sorted.map (numberedEntry (numberKey kind)))) ∧
      ((entryOf? tables (some kind) name).filter Data.holds = none → ∃ low high, IsLeast (numbersOf items) low ∧
        IsGreatest (numbersOf items) high ∧ (∀ n ∈ numbersOf items, low ≤ n ∧ n < high + 1) ∧
        data.find? (limitKey kind) = some (ownLimits low high kind) ∧
        ValueSplit data (kind == .enumerated && shape.extensible)) := by
  obtain ⟨first, rest, rfl⟩ := List.exists_cons_of_ne_nil filled
  have within {low high : Int} (least : IsLeast (numbersOf (first :: rest)) low)
      (greatest : IsGreatest (numbersOf (first :: rest)) high) : ∀ n ∈ numbersOf (first :: rest), low ≤ n ∧ n < high + 1 := by
    intro n member
    exact ⟨least.2 member, Int.lt_add_one_of_le (greatest.2 member)⟩
  cases kind with
  | bitString =>
    rw [type_bits carried known listed] at made
    obtain ⟨base, based, result⟩ := of_bind_ok made
    cases result
    obtain ⟨sorted, low, high, arranged, least, greatest, record⟩ := bitString_record carried numbered based
    refine ⟨sorted, arranged, record.listed _, ?_⟩
    intro unlisted
    obtain ⟨limits, split⟩ := record.split unlisted draft.series
    exact ⟨low, high, least, greatest, within least greatest, limits, split⟩
  | enumerated =>
    rw [type_values carried known listed] at made
    obtain ⟨base, based, result⟩ := of_bind_ok made
    cases result
    obtain ⟨sorted, low, high, arranged, least, greatest, record⟩ := enumerated_record carried numbered based
    refine ⟨sorted, arranged, record.listed _, ?_⟩
    intro unlisted
    obtain ⟨limits, split⟩ := record.split unlisted draft.series
    exact ⟨low, high, least, greatest, within least greatest, limits, split⟩
  | _ => cases simple

end

private def steps : Definition where
  name := "Steps"
  type := "Enumerated"
  items := some [
    { name := "up", number := some 3 }, { name := "down", number := some (-1) }, { name := "rise", number := some 3 }]
  extensible := true

/-- Two values with one number stay in their order, and the values of others are not documented. -/
theorem type_numbered_level : ∃ data, type .standard steps.draft = .ok data ∧ data.find? "values" = some (.array
      [numberedEntry "constant" { name := "down", number := some (-1) },
        numberedEntry "constant" { name := "up", number := some 3 },
        numberedEntry "constant" { name := "rise", number := some 3 }]) ∧
    data.find? "range" = some (.limits (.int (-1)) (.int 4)) ∧ ValueSplit data true := by
  obtain ⟨data, made, values, range⟩ : ∃ data, type .standard steps.draft = .ok data ∧ data.find? "values" = some (.array
      [numberedEntry "constant" { name := "down", number := some (-1) },
        numberedEntry "constant" { name := "up", number := some 3 },
        numberedEntry "constant" { name := "rise", number := some 3 }]) ∧
      data.find? "range" = some (.limits (.int (-1)) (.int 4)) := ⟨_, by cbv, rfl, rfl⟩
  have numbered : Numbered (steps.items.getD []) := by
    rw [Numbered]
    decide
  obtain ⟨sorted, -, -, unlisted⟩ :=
    type_numbered (definition_draft steps).toCarries rfl rfl rfl (by decide) numbered made
  obtain ⟨low, high, -, -, -, -, split⟩ := unlisted (by decide)
  exact ⟨data, made, values, range, split⟩

end TypeCatalog.Proofs
