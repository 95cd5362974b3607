import TypeCatalog.Proofs.NumberedItems

/-! The structure of types: which members there are at every depth, and which types are series. A record has the structure
of the definition that it was made for. -/

namespace TypeCatalog.Proofs
open TypeCatalog.Normal Source

/-- A member of a choice or a sequence, over any notion of types. Only fields tell whether they are optional. -/
structure Component (σ : Type) where
  name : String
  context : Option Int
  isOptional : Option Bool
  comment : Option String
  type : σ

inductive Branch (σ : Type) where
  | leaf
  | choice (options : List (Component σ))
  | sequence (fields : List (Component σ))

inductive Skeleton where
  | mk (series : Option Series) (branch : Branch Skeleton)

def branchOf {σ : Type} (parts : Bool → List (Component σ)) : Option Kind → Branch σ
  | some .choice => .choice (parts false)
  | some .sequence => .sequence (parts true)
  | _ => .leaf

mutual

def itemSkeleton : Item → Skeleton
  | .mk _ _ _ type series _ _ items _ _ =>
    .mk series (branchOf (fun areFields => listParts areFields items) (type.bind Kind.ofTypeName?))

def listParts (areFields : Bool) : Option (List Item) → List (Component Skeleton)
  | none => []
  | some items => itemParts areFields items

/-- The members that items are. A number that cannot be a context tag and a comment that is empty do not count. -/
def itemParts (areFields : Bool) : List Item → List (Component Skeleton)
  | [] => []
  | item :: rest =>
    { name := item.name
      context := item.number.filter fun n => 0 ≤ n && n ≤ 254
      isOptional := if areFields then some item.optional else none
      comment := item.comment.filter (!·.isEmpty)
      type := itemSkeleton item } :: itemParts areFields rest

end

def shapeSkeleton (shape : Shape) : Skeleton :=
  .mk shape.series (branchOf (fun areFields => listParts areFields shape.items) (Kind.ofTypeName? shape.type))

def textOf? : Data → Option String
  | .text text => some text
  | _ => none

def intOf? : Data → Option Int
  | .int n => some n
  | _ => none

def boolOf? : Data → Option Bool
  | .bool value => some value
  | _ => none

def seriesOf? : Data → Option Series
  | .bool true => some .unbounded
  | .int count => some (.counted count)
  | _ => none

def optionally {α : Type} (read : Data → Option α) (name : String) (fields : Fields) : Option (Option α) :=
  match fields.find? name with
  | none => some none
  | some value => (read value).map some

mutual

/-- The skeleton of a type in a record, if it is well formed. -/
def typeSkeleton : Data → Option Skeleton
  | .text _ => some (.mk none .leaf)
  | .object fields => do
    let series ← optionally seriesOf? "series" fields
    return .mk series (← fieldsBranch fields)
  | _ => none

def fieldsBranch : List (Key × Data) → Option (Branch Skeleton)
  | [] => some .leaf
  | (key, value) :: rest =>
    if key.same (.text "options") then do return .choice (← arrayParts value)
    else if key.same (.text "fields") then do return .sequence (← arrayParts value)
    else fieldsBranch rest

def arrayParts : Data → Option (List (Component Skeleton))
  | .array entries => entryParts entries
  | _ => none

def entryParts : List Data → Option (List (Component Skeleton))
  | [] => some []
  | entry :: rest => do
    let part ← entryPart entry
    return part :: (← entryParts rest)

def entryPart : Data → Option (Component Skeleton)
  | .object fields => do
    let name ← (Fields.find? fields "alias").bind textOf?
    let context ← optionally intOf? "context" fields
    let isOptional ← optionally boolOf? "optional" fields
    let comment ← optionally textOf? "comment" fields
    return { name, context, isOptional, comment, type := ← fieldsType fields }
  | _ => none

def fieldsType : List (Key × Data) → Option Skeleton
  | [] => none
  | (key, value) :: rest => if key.same (.text "type") then typeSkeleton value else fieldsType rest

end

section
variable {entries : List (String × Data)} {branch : Branch Skeleton} {series : Option Series}

theorem fieldsBranch_leaf (free : "options" ∉ entries.map (·.1) ∧ "fields" ∉ entries.map (·.1)) :
    fieldsBranch (named entries) = some .leaf := by
  induction entries with
  | nil => rfl
  | cons entry rest ih =>
    simp only [List.map_cons, List.mem_cons, not_or] at free
    have notOptions : (Key.text entry.1).same (.text "options") = false := beq_eq_false_iff_ne.mpr (Ne.symm free.1.1)
    have notFields : (Key.text entry.1).same (.text "fields") = false := beq_eq_false_iff_ne.mpr (Ne.symm free.2.1)
    change fieldsBranch ((.text entry.1, entry.2) :: named rest) = _
    rw [fieldsBranch, notOptions, notFields]
    exact ih ⟨free.1.2, free.2.2⟩

/-- A series that is added last leaves the branch as it is. -/
theorem fieldsBranch_series (data : Data) :
    fieldsBranch (named (entries ++ [("series", data)])) = fieldsBranch (named entries) := by
  induction entries with
  | nil => rfl
  | cons entry rest ih =>
    change fieldsBranch ((.text entry.1, entry.2) :: named (rest ++ [("series", data)])) =
      fieldsBranch ((.text entry.1, entry.2) :: named rest)
    rw [fieldsBranch, fieldsBranch, ih]

theorem named_skeleton (text : String) (series : Option Series) :
    typeSkeleton (withSeries (orNull Series.data series) (.text text)) = some (.mk series .leaf) := by
  cases series with
  | none => rfl
  | some series => cases series <;> rfl

theorem record_skeleton (new : "series" ∉ entries.map (·.1)) (known : fieldsBranch (named entries) = some branch)
    (series : Option Series) :
    typeSkeleton (withSeries (orNull Series.data series) (.record entries)) = some (.mk series branch) := by
  change typeSkeleton (withSeries _ (.object (named entries))) = _
  rw [withSeries]
  cases series with
  | none =>
    change typeSkeleton (.object (named entries)) = _
    rw [typeSkeleton, optionally, find_named, lookup_new new, known]
    rfl
  | some series =>
    have put := put_named new series.data
    have repeated : isSeries series.data = true := by cases series <;> rfl
    have read : seriesOf? series.data = some series := by cases series <;> rfl
    have found : (entries ++ [("series", series.data)]).lookup "series" = some series.data := by
      rw [List.lookup_append, lookup_new new]
      rfl
    change typeSkeleton (if !isSeries series.data then _ else .object (Fields.put (.text "series") series.data _)) = _
    rw [repeated, put]
    change typeSkeleton (.object (named _)) = _
    rw [typeSkeleton, optionally, find_named, found, fieldsBranch_series, known]
    simp [read]

end

theorem leaf_skeleton {entries : List (String × Data)} (keys : entries.map (·.1) ⊆ leafKeys) (series : Option Series) :
    typeSkeleton (withSeries (orNull Series.data series) (.record entries)) = some (.mk series .leaf) := by
  have free {name : String} (other : name ∉ leafKeys) : name ∉ entries.map (·.1) := fun listed => other (keys listed)
  exact record_skeleton (free (by decide)) (fieldsBranch_leaf ⟨free (by decide), free (by decide)⟩) series

theorem branchOf_flat {σ : Type} {parts : Bool → List (Component σ)} {kind : Option Kind}
    (flat : ∀ known, kind = some known → known.isComplex = false) : branchOf parts kind = .leaf := by
  cases kind with
  | none => rfl
  | some kind =>
    have simple := flat kind rfl
    cases kind with
    | choice | sequence => cases simple
    | _ => rfl

theorem listParts_items (areFields : Bool) (items : Option (List Item)) :
    listParts areFields items = itemParts areFields (items.getD []) := by
  cases items <;> rfl

theorem fieldsBranch_members {kind : Kind} {base key : String} {areFields : Bool} {items : Option (List Item)}
    {list : List Data} (called : MemberKind kind base key areFields)
    (known : entryParts list = some (itemParts areFields (items.getD []))) :
    fieldsBranch (named [("base", .text base), (key, .array list)]) =
      some (branchOf (fun areFields => listParts areFields items) (some kind)) := by
  cases called with
  | choice =>
    change (entryParts list >>= fun parts => pure (Branch.choice parts)) = _
    rw [known, ← listParts_items]
    rfl
  | sequence =>
    change (entryParts list >>= fun parts => pure (Branch.sequence parts)) = _
    rw [known, ← listParts_items]
    rfl

theorem entryPart_made (areFields : Bool) (item : Item) {type : Data} (own : typeSkeleton type = some (itemSkeleton item)) :
    entryPart (memberEntry areFields item type) = some {
      name := item.name
      context := item.number.filter fun n => 0 ≤ n && n ≤ 254
      isOptional := if areFields then some item.optional else none
      comment := item.comment.filter (!·.isEmpty)
      type := itemSkeleton item } := by
  rw [memberEntry, context_list, comment_list]
  generalize item.number.filter _ = context, item.comment.filter _ = text
  have read : entryPart (.record ([("alias", .text item.name), ("name", .text (Name.ofItem item.name)), ("type", type)] ++
      (context.map fun n => ("context", Data.int n)).toList ++
        (if areFields then [("optional", Data.bool item.optional)] else []) ++
          (text.map fun text => ("comment", Data.text text)).toList)) = (typeSkeleton type).bind fun type =>
            some ⟨item.name, context, if areFields then some item.optional else none, text, type⟩ := by
    cases context <;> cases areFields <;> cases text <;> rfl
  rw [read, own]
  rfl

section
variable {rules : Rules} {tables : WellKnown} {shape : Shape}

theorem members_parts {kind : Kind} {items : List Item} {areFields : Bool} {list : List Data}
    (complex : kind.isSimple = false) (each : ∀ item ∈ items, ItemFits rules kind item)
    (inner : ∀ name tag isOptional shape data, member name tag isOptional shape ∈ items → ShapeFits rules shape →
      type tables (member name tag isOptional shape).draft = .ok data → typeSkeleton data = some (shapeSkeleton shape))
    (made : members tables areFields (Item.listDraft items) = .ok list) :
    entryParts list = some (itemParts areFields items) := by
  have entries := @members_made _ _ _ _ _ _ (fun item data => typeSkeleton data = some (itemSkeleton item)) complex each
    (fun name tag isOptional shape data inside _ => inner name tag isOptional shape data inside) made
  clear made inner each
  induction entries with
  | nil => rfl
  | @cons item _ items more first _ ih =>
    obtain ⟨-, -, own⟩ := first
    have part := entryPart_made areFields item own
    rw [entryParts, part, ih]
    rfl

/-- The type of a draft has the skeleton of its shape, whatever the tables are. -/
theorem type_skeleton (shape : Shape) : ∀ draft name data, DraftOf draft name shape → ShapeFits rules shape →
    type tables draft = .ok data → typeSkeleton data = some (shapeSkeleton shape) := by
  induction shape using nested_induction with
  | step shape ih =>
    intro draft name data drawn fits made
    obtain ⟨base, form, same⟩ := type_form drawn fits
    rw [same, drawn.series] at made
    obtain ⟨bare, known, result⟩ := of_bind_ok made
    cases result
    rw [shapeSkeleton]
    cases form with
    | plain _ _ flat =>
      cases known
      rw [branchOf_flat flat]
      exact named_skeleton _ _
    | limited _ _ _ flat =>
      obtain ⟨_, -, known⟩ := of_bind_ok known
      obtain ⟨_, -, known⟩ := of_bind_ok known
      cases known
      rw [branchOf_flat flat]
      exact leaf_skeleton (by simp [leafKeys]) _
    | sized _ _ _ flat =>
      obtain ⟨_, -, known⟩ := of_bind_ok known
      cases known
      rw [branchOf_flat flat]
      exact leaf_skeleton (by simp [leafKeys]) _
    | bits kind listed _ each =>
      obtain ⟨_, _, _, -, -, -, record⟩ := bitString_record drawn.toCarries (numbered_of_simple rfl each) known
      obtain ⟨entries, rfl, keys⟩ := record.keys
      rw [kind]
      exact leaf_skeleton keys _
    | values kind listed _ each =>
      obtain ⟨_, _, _, -, -, -, record⟩ := enumerated_record drawn.toCarries (numbered_of_simple rfl each) known
      obtain ⟨entries, rfl, keys⟩ := record.keys
      rw [kind]
      exact leaf_skeleton keys _
    | members base key areFields other complex kind listed _ each called =>
      obtain ⟨list, entries, known⟩ := of_bind_ok known
      cases known
      have parts := members_parts complex each
        (fun name tag isOptional inner data inside fits typed =>
          ih inner (inside_of_listed listed inside) _ name data (member_draft name tag isOptional inner) fits typed) entries
      rw [← listed] at parts
      rw [kind]
      exact record_skeleton (by simpa using other) (fieldsBranch_members called parts) _

end

section
variable {registry : Option Registry} {tables : WellKnown} {definition : Definition} {record : Data}

/-- The record that is made for a definition of an accepted text has a type with the skeleton of the definition. Members
keep their order, and what is zero stays apart from what is not there. -/
theorem normalize_skeleton (parsed : Parsed definition)
    (normalized : normalize registry tables definition.draft = .ok (.made record)) :
    ∃ type, record.find? "type" = some type ∧ typeSkeleton type = some (shapeSkeleton definition.toShape) := by
  have fits : DefinitionFits plainRules definition := parsed.fits
  rcases normalize_source normalized with ⟨key, entry, -, found⟩ | ⟨made, -⟩
  · cases found
  · obtain ⟨type, typed, found⟩ := normalize_type made
    exact ⟨type, found, type_skeleton definition.toShape _ _ type (definition_draft definition) fits.shape typed⟩

end

/-- A fixed count of zero, a series without a count and a tag of zero, at different depths. -/
theorem normalize_skeleton_zero : ∃ (definition : Definition) (record type : Data),
    parse "Zone ::= SEQUENCE \x7b a [0] SEQUENCE SIZE (0) OF Unsigned, b SEQUENCE OF CHOICE \x7b c [255] Real \x7d OPTIONAL \x7d" =
      .ok [definition] ∧ normalize none .standard definition.draft = .ok (.made record) ∧
    record.find? "type" = some type ∧ typeSkeleton type = some (.mk none (.sequence [
      { name := "a", context := some 0, isOptional := some false, comment := none, type := .mk (some (.counted 0)) .leaf },
      { name := "b", context := none, isOptional := some true, comment := none, type := .mk (some .unbounded) (.choice [
        { name := "c", context := none, isOptional := none, comment := none, type := .mk none .leaf }]) }])) := by
  obtain ⟨definition, record, accepted, normalized, skeleton⟩ : ∃ (definition : Definition) (record : Data),
      parse "Zone ::= SEQUENCE \x7b a [0] SEQUENCE SIZE (0) OF Unsigned, b SEQUENCE OF CHOICE \x7b c [255] Real \x7d OPTIONAL \x7d" =
        .ok [definition] ∧ normalize none .standard definition.draft = .ok (.made record) ∧
      shapeSkeleton definition.toShape = .mk none (.sequence [
        { name := "a", context := some 0, isOptional := some false, comment := none, type := .mk (some (.counted 0)) .leaf },
        { name := "b", context := none, isOptional := some true, comment := none, type := .mk (some .unbounded) (.choice [
          { name := "c", context := none, isOptional := none, comment := none, type := .mk none .leaf }]) }]) :=
    ⟨_, _, by cbv, by rfl, by rfl⟩
  have parsed : Parsed definition := ⟨_, _, accepted, List.mem_singleton_self _⟩
  obtain ⟨type, found, kept⟩ := normalize_skeleton parsed normalized
  rw [skeleton] at kept
  exact ⟨definition, record, type, accepted, normalized, found, kept⟩

end TypeCatalog.Proofs
