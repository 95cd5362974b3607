import TypeCatalog.Proofs.CatalogueFeedback
import TypeCatalog.Proofs.NormalizationLimits
import TypeCatalog.Proofs.ObjectFields
import TypeCatalog.Proofs.SourceWellFormed

/-! The types inside of a definition, and the forms that their records have. Which form it is depends on the kind of a type
and on what it has; tables of well known types have a say in two of them only. -/

namespace TypeCatalog.Proofs
open TypeCatalog.Normal Source

def member (name : String) (tag : Option Int) (isOptional : Bool) (shape : Shape) : Item where
  name
  number := tag
  optional := isOptional
  type := some shape.type
  series := shape.series
  size := shape.size
  range := shape.range
  items := shape.items
  extensible := shape.extensible
  comment := shape.comment

/-- The type of an item is inside of the type that has the item. -/
inductive Inside (inner outer : Shape) : Prop where
  | mk {items : List Item} {name : String} {tag : Option Int} {isOptional : Bool} (listed : outer.items = some items)
      (inside : member name tag isOptional inner ∈ items)

theorem inside_of_listed {inner outer : Shape} {items : List Item} {name : String} {tag : Option Int} {isOptional : Bool}
    (listed : outer.items.getD [] = items) (inside : member name tag isOptional inner ∈ items) : Inside inner outer := by
  subst listed
  cases list : outer.items with
  | none =>
    rw [list] at inside
    cases inside
  | some items =>
    rw [list] at inside
    exact ⟨list, inside⟩

theorem Inside.listed {inner outer : Shape} (inside : Inside inner outer) :
    ∃ name tag isOptional, member name tag isOptional inner ∈ outer.items.getD [] := by
  obtain ⟨listed, inside⟩ := inside
  rw [listed]
  exact ⟨_, _, _, inside⟩

theorem Inside.smaller {inner outer : Shape} (inside : Inside inner outer) : sizeOf inner < sizeOf outer := by
  obtain ⟨listed, inside⟩ := inside
  have item := List.sizeOf_lt_of_mem inside
  cases outer
  cases inner
  dsimp only at listed
  subst listed
  simp only [member, Item.mk.sizeOf_spec, Shape.mk.sizeOf_spec, Option.some.sizeOf_spec] at item ⊢
  omega

/-- What holds of a type as soon as it holds of the types inside of it holds of all types. -/
theorem nested_induction {holds : Shape → Prop}
    (step : ∀ shape, (∀ inner, Inside inner shape → holds inner) → holds shape) (shape : Shape) : holds shape := by
  apply step
  intro inner inside
  exact nested_induction step inner
termination_by sizeOf shape
decreasing_by exact inside.smaller

/-- A type is in another if it is that type, or if it is in one that is inside of it. -/
def TypeIn : Shape → Shape → Prop := Relation.ReflTransGen Inside

theorem typeIn_cases {inner outer : Shape} :
    TypeIn inner outer ↔ outer = inner ∨ ∃ middle, TypeIn inner middle ∧ Inside middle outer :=
  Relation.ReflTransGen.cases_tail_iff Inside inner outer

theorem member_shape {name other : String} {tag tag' : Option Int} {isOptional isOptional' : Bool} {shape shape' : Shape}
    (same : member name tag isOptional shape = member other tag' isOptional' shape') : shape = shape' := by
  cases shape
  cases shape'
  simp only [member, Item.mk.injEq, Option.some.injEq] at same
  simp only [same]

section
variable {rules : Rules} {definition : Definition} {shape : Shape} {kind : Kind} {item : Item} {items : List Item}

theorem Spelled.part {definitions : List Definition} {placed : List Placed} (spelled : Spelled definitions placed)
    (listed : definition ∈ definitions) : ∃ part, DefinitionSpelled definition part ∧ part ⊆ placed := by
  induction spelled with
  | nil => cases listed
  | @cons _ _ own rest first _ ih =>
    rcases List.mem_cons.mp listed with rfl | later
    · exact ⟨own, first, List.subset_append_left own rest⟩
    · obtain ⟨part, spelled, inside⟩ := ih later
      exact ⟨part, spelled, List.subset_append_of_subset_right own inside⟩

theorem Parsed.fits [Admits rules] (parsed : Parsed definition) : DefinitionFits rules definition := by
  obtain ⟨text, definitions, accepted, listed⟩ := parsed
  obtain ⟨placed, spelled, last, path, -⟩ := accepted_laid accepted
  obtain ⟨part, own, inside⟩ := spelled.part listed
  apply definition_fits own
  intro p member
  exact path.clean p (inside member)

theorem ShapeFits.listed (fits : ShapeFits rules shape) (listed : shape.items = some items) :
    ∃ kind, Kind.ofTypeName? shape.type = some kind ∧ (kind.isSimple || kind.isComplex) = true ∧ items ≠ [] ∧
      ∀ item ∈ items, ItemFits rules kind item := by
  obtain ⟨-, -, -, -, -, list, -⟩ := fits
  rw [listed] at list
  cases list with
  | present known structured filled _ each => exact ⟨_, known, structured, filled, each⟩

theorem ItemFits.value_of_simple (fits : ItemFits rules kind item) (simple : kind.isComplex = false) :
    ∃ name number comment, item = { name, number := some number, comment } ∧ isItemName name.toList = true ∧
      0 ≤ number ∧ rules.number number := by
  cases fits with
  | value _ proper numbered => exact ⟨_, _, _, rfl, proper, numbered _ rfl⟩
  | typed complex => simp [simple] at complex

theorem ItemFits.member_of_complex (fits : ItemFits rules kind item) (complex : kind.isSimple = false) :
    ∃ name tag isOptional inner, item = member name tag isOptional inner ∧ isItemName name.toList = true ∧
      NumberFits rules tag ∧ ShapeFits rules inner := by
  cases fits with
  | value simple => simp [complex] at simple
  | typed _ proper tagged shaped => exact ⟨_, _, _, _, rfl, proper, tagged, shaped⟩

theorem ShapeFits.inside {inner : Shape} (fits : ShapeFits rules shape) (inside : Inside inner shape) :
    ShapeFits rules inner := by
  obtain ⟨listed, inside⟩ := inside
  obtain ⟨kind, -, -, -, each⟩ := fits.listed listed
  by_cases simple : kind.isSimple = true
  · have values : kind.isComplex = false := by cases kind <;> simp_all [Kind.isSimple, Kind.isComplex]
    obtain ⟨name, number, comment, same, -⟩ := (each _ inside).value_of_simple values
    simp [member] at same
  · obtain ⟨name, tag, isOptional, own, same, -, -, fits⟩ := (each _ inside).member_of_complex (by simpa using simple)
    rw [member_shape same]
    exact fits

/-- All types in a well formed type are well formed. -/
theorem ShapeFits.typeIn {inner : Shape} (fits : ShapeFits rules shape) (within : TypeIn inner shape) :
    ShapeFits rules inner := by
  induction within using Relation.ReflTransGen.head_induction_on with
  | refl => exact fits
  | head inside _ outer => exact outer.inside inside

end

/-- A draft has the type of a shape under a name, with its series. -/
structure DraftOf (draft : Draft) (name : String) (shape : Shape) : Prop extends Carries draft name shape where
  series : draft.series = orNull Series.data shape.series

theorem orNull_comment (comment : Option String) : orNull .text comment = commentData comment := by
  cases comment <;> rfl

theorem member_draft (name : String) (tag : Option Int) (isOptional : Bool) (shape : Shape) :
    DraftOf (member name tag isOptional shape).draft name shape :=
  ⟨⟨rfl, rfl, rfl, rfl, rfl, rfl, orNull_comment _⟩, rfl⟩

theorem definition_draft (definition : Definition) : DraftOf definition.draft definition.name definition.toShape :=
  ⟨⟨rfl, rfl, rfl, rfl, rfl, rfl, orNull_comment _⟩, rfl⟩

/-- The kinds of types with members: what they are called in records, and what lists their members there. -/
inductive MemberKind : Kind → String → String → Bool → Prop where
  | choice : MemberKind .choice "choice" "options" false
  | sequence : MemberKind .sequence "sequence" "fields" true

/-- The ways in which the type of a draft comes about, but for its series. -/
inductive TypeForm (rules : Rules) (draft : Draft) (shape : Shape) : (WellKnown → Except Failure Data) → Prop where
  | plain (bare : shownBounds shape = []) (itemless : shape.items = none)
      (flat : ∀ kind, Kind.ofTypeName? shape.type = some kind → kind.isComplex = false) :
      TypeForm rules draft shape fun _ => .ok (.text (Name.ofType shape.type))
  | limited {range : Range} (given : shape.range = some range) (shown : shownBounds shape = [range.min, range.max])
      (itemless : shape.items = none) (flat : ∀ kind, Kind.ofTypeName? shape.type = some kind → kind.isComplex = false) :
      TypeForm rules draft shape fun _ => do
        let minimum ← bound range.span.min
        let maximum ← bound range.span.max
        pure (.record [("base", .text (Name.ofType shape.type)), ("minimum", minimum), ("maximum", maximum)])
  | sized {size : Range} (given : shape.size = some size)
      (shown : shownBounds shape = if size.min.data.levelWith size.max.data then [size.min] else [size.min, size.max])
      (itemless : shape.items = none) (flat : ∀ kind, Kind.ofTypeName? shape.type = some kind → kind.isComplex = false) :
      TypeForm rules draft shape fun _ => do
        let extent ← length size.span
        pure (.record [("base", .text (Name.ofType shape.type)), ("length", extent)])
  | bits {first : Item} {rest : List Item} (kind : Kind.ofTypeName? shape.type = some .bitString)
      (listed : shape.items = some (first :: rest)) (bare : shownBounds shape = [])
      (each : ∀ item ∈ first :: rest, ItemFits rules .bitString item) :
      TypeForm rules draft shape fun tables => bitString tables draft first.draft (Item.listDraft rest)
  | values {first : Item} {rest : List Item} (kind : Kind.ofTypeName? shape.type = some .enumerated)
      (listed : shape.items = some (first :: rest)) (bare : shownBounds shape = [])
      (each : ∀ item ∈ first :: rest, ItemFits rules .enumerated item) :
      TypeForm rules draft shape fun tables => enumerated tables draft first.draft (Item.listDraft rest)
  | members (base key : String) (areFields : Bool) {kind : Kind} {items : List Item} (other : "series" ≠ key)
      (complex : kind.isSimple = false) (known : Kind.ofTypeName? shape.type = some kind)
      (listed : shape.items.getD [] = items) (bare : shownBounds shape = []) (each : ∀ item ∈ items, ItemFits rules kind item)
      (called : MemberKind kind base key areFields) :
      TypeForm rules draft shape fun tables => do
        let list ← members tables areFields (Item.listDraft items)
        pure (.record [("base", .text base), (key, .array list)])

section
variable {rules : Rules} {shape : Shape} {draft : Draft} {name : String} {kind : Kind}

theorem ShapeFits.itemless (fits : ShapeFits rules shape)
    (bare : ∀ kind, Kind.ofTypeName? shape.type = some kind → (kind.isSimple || kind.isComplex) = false) :
    shape.items = none := by
  cases listed : shape.items with
  | none => rfl
  | some items =>
    obtain ⟨kind, known, structured, -⟩ := fits.listed listed
    rw [bare kind known] at structured
    cases structured

theorem ShapeFits.each (fits : ShapeFits rules shape) (known : Kind.ofTypeName? shape.type = some kind) :
    ∀ item ∈ shape.items.getD [], ItemFits rules kind item := by
  cases listed : shape.items with
  | none => exact nofun
  | some items =>
    obtain ⟨other, found, -, -, each⟩ := fits.listed listed
    rw [known] at found
    cases found
    exact each

theorem ShapeFits.filled {items : List Item} (fits : ShapeFits rules shape) (listed : shape.items = some items) :
    ∃ first rest, items = first :: rest := by
  obtain ⟨-, -, -, filled, -⟩ := fits.listed listed
  exact List.exists_cons_of_ne_nil filled

theorem type_form (drawn : DraftOf draft name shape) (fits : ShapeFits rules shape) :
    ∃ base, TypeForm rules draft shape base ∧
      ∀ tables, type tables draft = base tables >>= fun data => pure (withSeries draft.series data) := by
  obtain ⟨name, typeName, number, isOptional, primitive, series, size, range, items, extensible, comment⟩ := draft
  obtain ⟨⟨named, typed, sized, limited, listed, opened, noted⟩, repeated⟩ := drawn
  dsimp only at named typed sized limited listed opened noted repeated
  subst named typed sized limited listed opened noted repeated
  simp only [type.eq_def, kindOf]
  cases found : Kind.ofTypeName? shape.type with
  | none =>
    have flat : ∀ kind, Kind.ofTypeName? shape.type = some kind → kind.isComplex = false := by simp [found]
    refine ⟨_, .plain (by rw [shownBounds, found]) (fits.itemless (by simp [found])) flat, ?_⟩
    intro tables
    rfl
  | some kind =>
    have flat (simple : kind.isComplex = false) :
        ∀ kind, Kind.ofTypeName? shape.type = some kind → kind.isComplex = false := by simpa [found] using simple
    cases kind with
    | any =>
      have itemless := fits.itemless (by simp [found, Kind.isSimple, Kind.isComplex])
      refine ⟨_, .plain (by rw [shownBounds, found]) itemless (flat rfl), ?_⟩
      intro tables
      rfl
    | unsigned | integer | real | double =>
      have itemless := fits.itemless (by simp [found, Kind.isSimple, Kind.isComplex])
      cases range : shape.range with
      | none =>
        refine ⟨_, .plain (by simp [shownBounds, found, range]) itemless (flat rfl), ?_⟩
        intro tables
        rfl
      | some limits =>
        refine ⟨_, .limited range (by simp [shownBounds, found, range]) itemless (flat rfl), ?_⟩
        intro tables
        simp only [bind_assoc, pure_bind]
        rfl
    | octetString | characterString =>
      have itemless := fits.itemless (by simp [found, Kind.isSimple, Kind.isComplex])
      cases size : shape.size with
      | none =>
        refine ⟨_, .plain (by simp [shownBounds, found, size]) itemless (flat rfl), ?_⟩
        intro tables
        rfl
      | some extent =>
        refine ⟨_, .sized size (by simp [shownBounds, found, size]) itemless (flat rfl), ?_⟩
        intro tables
        simp only [bind_assoc, pure_bind]
        rfl
    | bitString =>
      have each := fits.each found
      cases items : shape.items with
      | none =>
        refine ⟨_, .plain (by rw [shownBounds, found]) items (flat rfl), ?_⟩
        intro tables
        rfl
      | some list =>
        obtain ⟨first, rest, rfl⟩ := fits.filled items
        rw [items] at each
        refine ⟨_, .bits found items (by rw [shownBounds, found]) each, ?_⟩
        intro tables
        rfl
    | enumerated =>
      have each := fits.each found
      cases items : shape.items with
      | none =>
        refine ⟨_, .plain (by rw [shownBounds, found]) items (flat rfl), ?_⟩
        intro tables
        rfl
      | some list =>
        obtain ⟨first, rest, rfl⟩ := fits.filled items
        rw [items] at each
        refine ⟨_, .values found items (by rw [shownBounds, found]) each, ?_⟩
        intro tables
        rfl
    | choice =>
      refine ⟨_, .members "choice" "options" false (by decide) rfl found rfl (by rw [shownBounds, found]) (fits.each found)
        .choice, ?_⟩
      intro tables
      simp only [bind_assoc, pure_bind]
      cases shape.items <;> rfl
    | sequence =>
      refine ⟨_, .members "sequence" "fields" true (by decide) rfl found rfl (by rw [shownBounds, found]) (fits.each found)
        .sequence, ?_⟩
      intro tables
      simp only [bind_assoc, pure_bind]
      cases shape.items <;> rfl

end

theorem context_list (tag : Option Int) : context (orNull .int tag) =
    ((tag.filter fun n => 0 ≤ n && n ≤ 254).map fun n => ("context", Data.int n)).toList := by
  cases tag with
  | none => rfl
  | some n =>
    change (if 0 ≤ n && n ≤ 254 then _ else _) = _
    rw [Option.filter]
    split <;> rfl

theorem comment_list (text : Option String) : comment (orNull .text text) =
    ((text.filter (!·.isEmpty)).map fun text => ("comment", Data.text text)).toList := by
  cases text with
  | none => rfl
  | some text =>
    change (if !text.isEmpty then _ else _) = _
    rw [Option.filter]
    split <;> rfl

def memberEntry (areFields : Bool) (item : Item) (type : Data) : Data :=
  .record ([("alias", .text item.name), ("name", .text (Name.ofItem item.name)), ("type", type)] ++
    context (orNull .int item.number) ++ (if areFields then [("optional", .bool item.optional)] else []) ++
      comment (orNull .text item.comment))

/-- The entry is the one of a member, and something holds of the data of its type. -/
inductive EntryMade (rules : Rules) (tables : WellKnown) (areFields : Bool) (holds : Item → Data → Prop) (item : Item) :
    Data → Prop where
  | mk {type : Data} (tagged : NumberFits rules item.number) (typed : Normal.type tables item.draft = .ok type)
      (own : holds item type) : EntryMade rules tables areFields holds item (memberEntry areFields item type)

theorem members_made {rules : Rules} {tables : WellKnown} {areFields : Bool} {kind : Kind} {items : List Item}
    {list : List Data} {holds : Item → Data → Prop} (complex : kind.isSimple = false)
    (each : ∀ item ∈ items, ItemFits rules kind item)
    (inner : ∀ name tag isOptional shape data, member name tag isOptional shape ∈ items → isItemName name.toList = true →
      ShapeFits rules shape → type tables (member name tag isOptional shape).draft = .ok data →
        holds (member name tag isOptional shape) data)
    (made : members tables areFields (Item.listDraft items) = .ok list) :
    List.Forall₂ (EntryMade rules tables areFields holds) items list := by
  induction items generalizing list with
  | nil =>
    cases made
    exact .nil
  | cons item rest ih =>
    obtain ⟨first, others⟩ := List.forall_mem_cons.mp each
    obtain ⟨name, tag, isOptional, shape, rfl, proper, tagged, fits⟩ := first.member_of_complex complex
    rw [Item.listDraft, members] at made
    obtain ⟨_, ⟨⟩, made⟩ := of_bind_ok made
    obtain ⟨type, typed, made⟩ := of_bind_ok made
    obtain ⟨more, later, made⟩ := of_bind_ok made
    cases made
    have own := inner name tag isOptional shape type List.mem_cons_self proper fits typed
    have deeper := ih others (fun name tag isOptional shape data listed =>
      inner name tag isOptional shape data (List.mem_cons_of_mem _ listed)) later
    exact .cons (.mk tagged typed own) deeper

section
variable {definition : Definition} {result : Normalized} {registry : Option Registry} {tables : WellKnown}

/-- A result is what the registry has under some key, or it is made as without a registry. -/
theorem normalize_source (normalized : normalize registry tables definition.draft = .ok result) :
    (∃ key entry, registry.bind (·.get? key) = some entry ∧ result = .found entry) ∨
      normalize none tables definition.draft = .ok result ∧ ∃ record, result = .made record := by
  obtain ⟨name, named, normalized⟩ := of_bind_ok normalized
  dsimp only at normalized
  split at normalized
  next entry found =>
    cases normalized
    left
    cases registry with
    | none => cases found
    | some registry =>
      rcases Option.or_eq_some_iff.mp found with own | ⟨-, other⟩
      · exact ⟨_, entry, (Option.filter_eq_some_iff.mp own).1, rfl⟩
      · exact ⟨_, entry, other, rfl⟩
  next =>
    right
    obtain ⟨type, typed, made⟩ := of_bind_ok normalized
    cases made
    refine ⟨?_, _, rfl⟩
    rw [Normal.normalize, named, typed]
    rfl

theorem normalize_made (made : normalize none tables definition.draft = .ok result) :
    ∃ primitive comment type, Normal.type tables definition.draft = .ok type ∧
      (primitive = [] ∨ ∃ tag, primitive = [("primitive", .int tag)]) ∧
      (comment = [] ∨ ∃ text, comment = [("comment", .text text)]) ∧
      result.data = .record ([("alias", .text definition.name), ("name", .text (Name.ofType definition.name))] ++
        primitive ++ comment ++ [("type", type)]) := by
  obtain ⟨_, ⟨⟩, made⟩ := of_bind_ok made
  obtain ⟨type, typed, made⟩ := of_bind_ok made
  cases made
  refine ⟨_, _, type, typed, ?_, ?_, rfl⟩
  · have tag : definition.draft.primitive = orNull .int definition.primitive := rfl
    rw [tag]
    cases definition.primitive with
    | none => exact .inl rfl
    | some tag => exact .inr ⟨tag, rfl⟩
  · have text : definition.draft.comment = orNull .text definition.comment := rfl
    rw [text, Normal.comment]
    split
    next holds =>
      cases noted : definition.comment with
      | none =>
        rw [noted] at holds
        cases holds
      | some text => exact .inr ⟨text, rfl⟩
    next => exact .inl rfl

theorem normalize_type (made : normalize none tables definition.draft = .ok result) :
    ∃ type, Normal.type tables definition.draft = .ok type ∧ result.data.find? "type" = some type := by
  obtain ⟨primitive, comment, type, typed, tagged, noted, whole⟩ := normalize_made made
  refine ⟨type, typed, ?_⟩
  rw [whole]
  change Fields.find? (named _) "type" = _
  rw [find_named]
  rcases tagged with rfl | ⟨tag, rfl⟩
  · rcases noted with rfl | ⟨text, rfl⟩ <;> rfl
  · rcases noted with rfl | ⟨text, rfl⟩ <;> rfl

theorem normalize_of_type {type : Data} (typed : Normal.type tables definition.draft = .ok type) :
    ∃ record, normalize none tables definition.draft = .ok (.made record) ∧ record.find? "type" = some type := by
  have made : ∃ record, normalize none tables definition.draft = .ok (.made record) := by
    rw [Normal.normalize, typed]
    exact ⟨_, rfl⟩
  obtain ⟨record, made⟩ := made
  obtain ⟨other, own, found⟩ := normalize_type made
  cases typed.symm.trans own
  exact ⟨record, made, found⟩

end

end TypeCatalog.Proofs
