import TypeCatalog.Proofs.ItemNumbers
import TypeCatalog.Proofs.RegistryPrecedence
import TypeCatalog.Proofs.SourceVerdicts

/-! Which definitions of a text have records. All of them have, but for two limits: an integer that a record shows as a
bound must fit the floating point range, and a number that it takes out of a comment must not have too many digits. -/

namespace TypeCatalog.Proofs
open TypeCatalog.Normal Source

def boundFits : Bound → Bool
  | .int n => !Double.overflows n
  | .real _ => true

/-- The bounds that the record of a type shows: those of the range of a number, and those of the size of a string, which
are shown as one if they are equal. -/
def shownBounds (shape : Shape) : List Bound :=
  match Kind.ofTypeName? shape.type with
  | some .unsigned | some .integer | some .real | some .double =>
    match shape.range with
    | none => []
    | some range => [range.min, range.max]
  | some .octetString | some .characterString =>
    match shape.size with
    | none => []
    | some size => if size.min.data.levelWith size.max.data then [size.min] else [size.min, size.max]
  | _ => []

/-- The numbers in the sentence about reserved values, which may stand in any of the comments or run over several. -/
def sentenceNumbers (comments : List (Option String)) : List (List Char) :=
  let lines := (comments.filterMap (·.filter (!·.isEmpty))).map String.toList
  match Reserved.search ([' '].intercalate lines) with
  | none => []
  | some limits => [limits.standardFrom, limits.standardTo, limits.othersFrom, limits.othersTo]

/-- The numbers that the record of a type takes out of its comments. Only an enumeration that is open to more values and
is not well known has such numbers. -/
def quotedNumbers (name : String) (shape : Shape) : List (List Char) :=
  match Kind.ofTypeName? shape.type, shape.items, shape.extensible, WellKnown.standard.enumerated.find? name with
  | some .enumerated, some items, true, none => sentenceNumbers (shape.comment :: items.map Item.comment)
  | _, _, _, _ => []

def numbersFit (name : String) (shape : Shape) : Bool :=
  (shownBounds shape).all boundFits && (quotedNumbers name shape).all (·.length ≤ digitLimit)

mutual

def itemFits : Item → Bool
  | .mk _ _ _ none _ _ _ _ _ _ => true
  | .mk name _ _ (some type) series size range items extensible comment =>
    numbersFit name { type, series, size, range, items, extensible, comment } && listFits items

def listFits : Option (List Item) → Bool
  | none => true
  | some items => itemsFit items

def itemsFit : List Item → Bool
  | [] => true
  | item :: rest => itemFits item && itemsFit rest

end

/-- Whether the record of a definition can show all numbers in it. -/
def definitionFits (definition : Definition) : Bool :=
  numbersFit definition.name definition.toShape && listFits definition.items

/-- A result agrees with a test: it is there if the test is passed, and else a number was too great to be shown. -/
def Agrees {α : Type} (fits : Bool) : Except Failure α → Prop
  | .ok _ => fits = true
  | .error failure => fits = false ∧ (failure = .overflow ∨ failure = .tooManyDigits)

section
variable {α β : Type} {fits more : Bool} {result : Except Failure α}

theorem Agrees.bind {next : α → Except Failure β} (first : Agrees fits result)
    (second : ∀ value, Agrees more (next value)) : Agrees (fits && more) (result >>= next) := by
  cases result with
  | ok value =>
    have passed : fits = true := first
    rw [passed]
    exact second value
  | error failure => exact ⟨by rw [first.1]; rfl, first.2⟩

theorem Agrees.follow {next : α → Except Failure β} (first : Agrees fits result)
    (second : ∀ value, Agrees true (next value)) : Agrees fits (result >>= next) := by
  have both := first.bind second
  rwa [Bool.and_true] at both

theorem Agrees.map (first : Agrees fits result) (image : α → β) :
    Agrees fits (result >>= fun value => pure (image value)) := by
  apply first.follow
  intro value
  rfl

end

theorem bound_agrees (limit : Bound) : Agrees (boundFits limit) (bound limit.data) := by
  cases limit with
  | real value => rfl
  | int n =>
    rw [Bound.data, bound, boundFits]
    cases overflowing : Double.overflows n with
    | true => exact ⟨rfl, .inl rfl⟩
    | false => rfl

theorem length_agrees (size : Range) :
    Agrees ((if size.min.data.levelWith size.max.data then [size.min] else [size.min, size.max]).all boundFits)
      (length size.span) := by
  have number (limit : Bound) : limit.data.isNumber = true := by cases limit <;> rfl
  simp only [length, Range.span, number, Bool.and_self, if_true]
  by_cases level : size.min.data.levelWith size.max.data = true
  · simpa [level] using (bound_agrees size.min).map id
  · have pair := (bound_agrees size.min).bind fun minimum =>
      (bound_agrees size.max).map fun maximum => Data.limits minimum maximum
    simpa [level] using pair

theorem range_agrees (range : Range) (make : Data → Data → Data) :
    Agrees ([range.min, range.max].all boundFits) (do
      let minimum ← bound range.span.min
      let maximum ← bound range.span.max
      pure (make minimum maximum)) := by
  have pair := (bound_agrees range.min).bind fun minimum => (bound_agrees range.max).map (make minimum)
  simpa [Range.span] using pair

def IsValue (item : Item) : Prop := ∃ (name : String) (number : Int) (comment : Option String),
  item = { name, number := some number, comment }

section
variable {items : List Item}

theorem numbered_of_values (values : ∀ item ∈ items, IsValue item) : Numbered items := by
  intro item listed
  obtain ⟨name, number, comment, rfl⟩ := values item listed
  rfl

theorem numbered_values (values : ∀ item ∈ items, IsValue item) (key : String) :
    ∃ entries, numbered key (Item.listDraft items) = .ok entries := by
  obtain ⟨sorted, -, entries⟩ := numbered_arranged (numbered_of_values values)
  exact ⟨_, entries key⟩

theorem extent_values {first : Draft} {rest : List Draft} (drafts : first :: rest = Item.listDraft items)
    (values : ∀ item ∈ items, IsValue item) : ∃ limits, extent first rest = .ok limits := by
  cases items with
  | nil => cases drafts
  | cons item others =>
    cases drafts
    obtain ⟨low, high, limits, -⟩ := extent_numbers (numbered_of_values values)
    exact ⟨_, limits⟩

end

theorem standard_entries : (∀ field ∈ WellKnown.standard.enumerated, ∃ name standardTo proprietaryTo,
      field = WellKnown.enumeration name standardTo proprietaryTo) ∧
    ∀ field ∈ WellKnown.standard.bitString, field.2 = .record [("maximum", .int 64), ("proprietary", .valueSpan 32 63)] := by
  constructor
  · simp only [WellKnown.standard, List.forall_mem_cons]
    exact ⟨⟨_, _, _, rfl⟩, ⟨_, _, _, rfl⟩, ⟨_, _, _, rfl⟩, ⟨_, _, _, rfl⟩, ⟨_, _, _, rfl⟩, ⟨_, _, _, rfl⟩,
      ⟨_, _, _, rfl⟩, ⟨_, _, _, rfl⟩, ⟨_, _, _, rfl⟩, ⟨_, _, _, rfl⟩, ⟨_, _, _, rfl⟩, List.forall_mem_nil _⟩
  · simp [WellKnown.standard]

theorem field_of_find {fields : Fields} {name : String} {entry : Data} (found : fields.find? name = some entry) :
    ∃ field ∈ fields, field.2 = entry := by
  obtain ⟨field, first, same⟩ := Option.map_eq_some_iff.mp found
  exact ⟨field, List.mem_of_find?_eq_some first, same⟩

theorem entryFor_text (table : Fields) (name : String) :
    entryFor table (.text name) = .ok ((table.find? name).filter Data.holds) := rfl

theorem entryFor_usable {table : Fields} {name : String}
    (holding : ∀ entry, table.find? name = some entry → entry.holds = true) :
    entryFor table (.text name) = .ok (table.find? name) := by
  rw [entryFor_text]
  cases found : table.find? name with
  | none => rfl
  | some entry => rw [Option.filter, if_pos (holding entry found)]

private theorem entryFor_holding {fields : Fields} (holding : ∀ field ∈ fields, field.2.holds = true) (name : String) :
    entryFor fields (.text name) = .ok (fields.find? name) := by
  apply entryFor_usable
  intro entry found
  obtain ⟨field, member, rfl⟩ := field_of_find found
  exact holding field member

section
variable {items : List Item} {draft first : Draft} {rest : List Draft} {name : String}

theorem bitString_agrees (named : draft.name = .text name) (drafts : first :: rest = Item.listDraft items)
    (values : ∀ item ∈ items, IsValue item) : Agrees true (bitString .standard draft first rest) := by
  obtain ⟨limits, known⟩ := extent_values drafts values
  obtain ⟨bits, listed⟩ := numbered_values values "position"
  have looked := entryFor_holding (fun field member => by rw [standard_entries.2 field member]; rfl) name
  rw [bitString, drafts, known, listed, named, looked]
  cases found : WellKnown.standard.bitString.find? name with
  | none => rfl
  | some entry =>
    obtain ⟨field, member, rfl⟩ := field_of_find found
    rw [standard_entries.2 field member]
    rfl

def commentData : Option String → Data
  | none => .null
  | some text => .text text

theorem comments_read {read : Data → Except Failure (List Char)} (reads : ∀ text, read (.text text) = .ok text.toList)
    (comments : List (Option String)) :
    ((comments.map commentData).filter Data.holds).mapM read =
      .ok ((comments.filterMap (·.filter (!·.isEmpty))).map String.toList) := by
  induction comments with
  | nil => rfl
  | cons comment comments ih =>
    cases comment with
    | none => exact ih
    | some text =>
      rw [List.map_cons, List.filter_cons, List.filterMap_cons]
      cases empty : text.isEmpty with
      | true => simpa [commentData, Data.holds, empty, Option.filter] using ih
      | false => simp [commentData, Data.holds, empty, Option.filter, reads, ih, bind, Except.bind, pure, Except.pure]

theorem draft_comments {comment : Option String} (noted : draft.comment = commentData comment) (items : List Item) :
    draft.comment :: (Item.listDraft items).map Draft.comment = (comment :: items.map Item.comment).map commentData := by
  rw [listDraft_eq, noted, List.map_map, List.map_cons, List.map_map]
  congr 2
  funext item
  cases item with
  | mk _ _ _ _ _ _ _ _ _ comment => cases comment <;> rfl

theorem reservedSpans_agrees {comment : Option String} (noted : draft.comment = commentData comment) :
    Agrees ((sentenceNumbers (comment :: items.map Item.comment)).all (·.length ≤ digitLimit))
      (reservedSpans draft (Item.listDraft items)) := by
  have short : (fun digits : List Char => decide (digits.length ≤ digitLimit)) = fun digits => (readNat? digits).isSome := by
    funext digits
    rw [readNat?]
    split <;> simp_all
  rw [reservedSpans, draft_comments noted, comments_read fun _ => rfl, sentenceNumbers, short]
  dsimp only [bind, Except.bind]
  cases Reserved.search _ with
  | none => rfl
  | some limits =>
    simp only [List.all_cons, List.all_nil, Bool.and_true]
    cases readNat? limits.standardFrom with
    | none => exact ⟨rfl, .inr rfl⟩
    | some low =>
      cases readNat? limits.standardTo with
      | none => exact ⟨rfl, .inr rfl⟩
      | some high =>
        cases readNat? limits.othersFrom with
        | none => exact ⟨rfl, .inr rfl⟩
        | some lowOthers =>
          cases readNat? limits.othersTo with
          | none => exact ⟨rfl, .inr rfl⟩
          | some highOthers =>
            dsimp only
            split <;> rfl

theorem enumerated_agrees {shape : Shape} (named : draft.name = .text name) (opened : draft.extensible = .bool shape.extensible)
    (noted : draft.comment = commentData shape.comment) (kind : Kind.ofTypeName? shape.type = some .enumerated)
    (listed : shape.items = some items) (drafts : first :: rest = Item.listDraft items)
    (values : ∀ item ∈ items, IsValue item) :
    Agrees ((quotedNumbers name shape).all (·.length ≤ digitLimit)) (enumerated .standard draft first rest) := by
  obtain ⟨limits, known⟩ := extent_values drafts values
  obtain ⟨entries, numbers⟩ := numbered_values values "constant"
  have holding : ∀ field ∈ WellKnown.standard.enumerated, field.2.holds = true := by
    intro field member
    obtain ⟨name, standardTo, proprietaryTo, rfl⟩ := standard_entries.1 field member
    rfl
  have looked := entryFor_holding holding name
  rw [enumerated, drafts, known, numbers, named, looked]
  rw [quotedNumbers, kind, listed]
  cases found : WellKnown.standard.enumerated.find? name with
  | some entry =>
    obtain ⟨field, member, rfl⟩ := field_of_find found
    obtain ⟨name, standardTo, proprietaryTo, rfl⟩ := standard_entries.1 field member
    cases shape.extensible <;> rfl
  | none =>
    rw [opened]
    cases shape.extensible with
    | false => rfl
    | true =>
      have spans := @reservedSpans_agrees items draft shape.comment noted
      apply spans.follow
      intro found
      cases found <;> rfl

end

/-- A draft has the type of a shape under a name. -/
structure Carries (draft : Draft) (name : String) (shape : Shape) : Prop where
  name : draft.name = .text name
  type : draft.type = .text shape.type
  size : draft.size = shape.size.map Range.span
  range : draft.range = shape.range.map Range.span
  items : draft.items = Item.itemsDraft shape.items
  extensible : draft.extensible = .bool shape.extensible
  comment : draft.comment = commentData shape.comment

/-- An item of a kind is a value, or it is a member that agrees with its test. -/
inductive ItemAgrees (kind : Kind) (item : Item) : Prop where
  | value (simple : kind.isSimple = true) (value : IsValue item)
  | member (complex : kind.isComplex = true) (agrees : Agrees (itemFits item) (type .standard item.draft))

def Itemized (shape : Shape) : Prop := ∀ items, shape.items = some items →
  ∃ kind, Kind.ofTypeName? shape.type = some kind ∧ items ≠ [] ∧ ∀ item ∈ items, ItemAgrees kind item

theorem itemsFit_values {items : List Item} (values : ∀ item ∈ items, IsValue item) : itemsFit items = true := by
  induction items with
  | nil => rfl
  | cons item rest ih =>
    obtain ⟨own, others⟩ := List.forall_mem_cons.mp values
    obtain ⟨name, number, comment, rfl⟩ := own
    rw [itemsFit, ih others, itemFits, Bool.and_true]

theorem quotedNumbers_other {name : String} {shape : Shape}
    (other : Kind.ofTypeName? shape.type ≠ some .enumerated ∨ shape.items = none) : quotedNumbers name shape = [] := by
  rw [quotedNumbers]
  split
  next found items _ _ => simp [found, items] at other
  next => rfl

private theorem members_agree {items : List Item} {areFields : Bool}
    (each : ∀ item ∈ items, Agrees (itemFits item) (type .standard item.draft)) :
    Agrees (itemsFit items) (members .standard areFields (Item.listDraft items)) := by
  induction items with
  | nil => rfl
  | cons item rest ih =>
    obtain ⟨first, others⟩ := List.forall_mem_cons.mp each
    have named : Name.ofItemData item.draft.name = .ok (Name.ofItem item.name) := by
      cases item
      rfl
    rw [Item.listDraft, members, named, itemsFit]
    apply first.bind
    intro type
    exact (ih others).map _

section
variable {shape : Shape} {kind : Kind} {items : List Item}

private theorem Itemized.none (itemized : Itemized shape)
    (plain : ∀ kind, Kind.ofTypeName? shape.type = some kind → kind.isSimple = false ∧ kind.isComplex = false) :
    shape.items = none := by
  cases listed : shape.items with
  | none => rfl
  | some items =>
    obtain ⟨kind, known, filled, each⟩ := itemized items listed
    obtain ⟨item, more, rfl⟩ := List.exists_cons_of_ne_nil filled
    cases each item List.mem_cons_self with
    | value simple => simp [(plain kind known).1] at simple
    | member complex => simp [(plain kind known).2] at complex

private theorem Itemized.values (itemized : Itemized shape) (found : Kind.ofTypeName? shape.type = some kind)
    (simple : kind.isComplex = false) (listed : shape.items = some items) :
    ∃ item more, items = item :: more ∧ ∀ item ∈ items, IsValue item := by
  obtain ⟨other, known, filled, each⟩ := itemized items listed
  rw [found] at known
  cases known
  obtain ⟨item, more, rfl⟩ := List.exists_cons_of_ne_nil filled
  refine ⟨item, more, rfl, ?_⟩
  intro item member
  cases each item member with
  | value _ value => exact value
  | member complex => simp [simple] at complex

private theorem Itemized.members (itemized : Itemized shape) (found : Kind.ofTypeName? shape.type = some kind)
    (complex : kind.isSimple = false) (listed : shape.items = some items) (areFields : Bool) :
    Agrees (itemsFit items) (Normal.members .standard areFields (Item.listDraft items)) := by
  obtain ⟨other, known, -, each⟩ := itemized items listed
  rw [found] at known
  cases known
  apply members_agree
  intro item member
  cases each item member with
  | value simple => simp [complex] at simple
  | member _ agrees => exact agrees

end

theorem type_agrees {draft : Draft} {name : String} {shape : Shape} (carried : Carries draft name shape)
    (itemized : Itemized shape) : Agrees (numbersFit name shape && listFits shape.items) (type .standard draft) := by
  obtain ⟨name, typeName, number, optional, primitive, series, size, range, items, extensible, comment⟩ := draft
  obtain ⟨named, typed, sized, limited, listed, opened, noted⟩ := carried
  dsimp only at *
  subst named typed sized limited listed opened noted
  rw [type.eq_def, numbersFit, shownBounds]
  dsimp only [kindOf]
  cases found : Kind.ofTypeName? shape.type with
  | none =>
    rw [quotedNumbers_other (.inl (by simp [found])), itemized.none (by simp [found])]
    rfl
  | some kind =>
    cases kind with
    | any =>
      rw [quotedNumbers_other (.inl (by simp [found])), itemized.none (by simp [found, Kind.isSimple, Kind.isComplex])]
      rfl
    | unsigned | integer | real | double =>
      rw [quotedNumbers_other (.inl (by simp [found])), itemized.none (by simp [found, Kind.isSimple, Kind.isComplex])]
      cases shape.range with
      | none => rfl
      | some range =>
        simp only [List.all_nil, listFits, Bool.and_true]
        exact range_agrees range _
    | octetString | characterString =>
      rw [quotedNumbers_other (.inl (by simp [found])), itemized.none (by simp [found, Kind.isSimple, Kind.isComplex])]
      cases shape.size with
      | none => rfl
      | some size =>
        simp only [List.all_nil, listFits, Bool.and_true]
        exact (length_agrees size).map _
    | bitString =>
      rw [quotedNumbers_other (.inl (by simp [found]))]
      cases items : shape.items with
      | none => rfl
      | some list =>
        obtain ⟨item, more, rfl, values⟩ := itemized.values found rfl items
        rw [listFits, itemsFit_values values]
        exact (bitString_agrees rfl rfl values).map _
    | enumerated =>
      cases items : shape.items with
      | none =>
        rw [quotedNumbers_other (.inr items)]
        rfl
      | some list =>
        obtain ⟨item, more, rfl, values⟩ := itemized.values found rfl items
        rw [listFits, itemsFit_values values, Bool.and_true]
        exact (enumerated_agrees rfl rfl rfl found items rfl values).map _
    | choice =>
      rw [quotedNumbers_other (.inl (by simp [found]))]
      cases items : shape.items with
      | none => rfl
      | some list => exact (itemized.members found rfl items false).map _
    | sequence =>
      rw [quotedNumbers_other (.inl (by simp [found]))]
      cases items : shape.items with
      | none => rfl
      | some list => exact (itemized.members found rfl items true).map _

mutual

private theorem shape_itemized {shape : Shape} {placed : List Placed} (spelled : ShapeSpelled shape placed) :
    Itemized shape := by
  match spelled with
  | .mk _ _ _ _ _ listed => exact list_itemized listed
termination_by structural spelled

private theorem list_itemized {type : String} {list : Option Read.ItemList} {placed : List Placed}
    (spelled : ListSpelled type list placed) : ∀ items, list.map (·.items) = some items →
      ∃ kind, Kind.ofTypeName? type = some kind ∧ items ≠ [] ∧ ∀ item ∈ items, ItemAgrees kind item := by
  match spelled with
  | .absent _ => exact nofun
  | .present _ _ known structured spelled =>
    rintro _ ⟨⟩
    exact ⟨_, known, items_agree spelled structured⟩
termination_by structural spelled

private theorem items_agree {kind : Kind} {items : List Item} {extensible : Bool} {placed : List Placed}
    (spelled : ItemsSpelled kind items extensible placed) (structured : (kind.isSimple || kind.isComplex) = true) :
    items ≠ [] ∧ ∀ item ∈ items, ItemAgrees kind item := by
  match spelled with
  | .last first | .ellipsis _ _ first _ =>
    have only := item_agrees first structured
    exact ⟨by simp, by simpa using only⟩
  | .more _ first others =>
    have own := item_agrees first structured
    obtain ⟨-, each⟩ := items_agree others structured
    exact ⟨by simp, List.forall_mem_cons.mpr ⟨own, each⟩⟩
termination_by structural spelled

private theorem item_agrees {kind : Kind} {item : Item} {placed : List Placed} (spelled : ItemSpelled kind item placed)
    (structured : (kind.isSimple || kind.isComplex) = true) : ItemAgrees kind item := by
  match spelled with
  | .value comment _ _ simple _ => exact .value simple ⟨_, _, comment, rfl⟩
  | @ItemSpelled.typed _ name tag shape optional _ _ _ comment _ complex _ shaped _ =>
    have own : Itemized shape := shape_itemized shaped
    have itemized : Itemized { shape with comment := shape.comment.or comment } := own
    refine .member (by simpa [complex] using structured) (type_agrees ?_ itemized)
    refine ⟨rfl, rfl, rfl, rfl, rfl, rfl, ?_⟩
    cases shape.comment.or comment <;> rfl
termination_by structural spelled

end

private theorem definition_agrees {definition : Definition} {placed : List Placed}
    (spelled : DefinitionSpelled definition placed) :
    Agrees (definitionFits definition) (type .standard definition.draft) := by
  cases spelled with
  | @mk name primitive shape _ _ comment _ _ shaped =>
    have own : Itemized shape := shape_itemized shaped
    have itemized : Itemized { shape with comment := shape.comment.or comment } := own
    refine type_agrees ?_ itemized
    refine ⟨rfl, rfl, rfl, rfl, rfl, rfl, ?_⟩
    dsimp only [Definition.draft]
    cases shape.comment.or comment <;> rfl

/-- The records that a registry was made of; there are none if there is no registry. -/
def MadeOf (records : List Data) : Option Registry → Prop
  | none => records = []
  | some registry => Registry.ofRecords records = .ok registry

section
variable {records : List Data} {registry : Option Registry} {definition : Definition} {placed : List Placed}

/-- A definition has a result exactly if there is a record for it or its own numbers fit. -/
private theorem normalize_agrees (made : MadeOf records registry) (spelled : DefinitionSpelled definition placed) :
    Agrees ((precedence records definition.name).isSome || definitionFits definition)
      (normalize registry .standard definition.draft) := by
  have fresh : Agrees (definitionFits definition) (normalize none .standard definition.draft) :=
    (definition_agrees spelled).map _
  cases registry with
  | none =>
    cases made
    exact fresh
  | some registry =>
    cases found : precedence records definition.name with
    | none =>
      rw [normalize_absent made found]
      exact fresh
    | some record =>
      obtain ⟨result, normalized, -⟩ := normalize_found made found .standard
      rw [normalized]
      rfl

/-- The definitions of an accepted text have one result each, in order. Only a definition for which there is no record,
and whose own numbers do not fit, has none: nothing is given for it and for what follows it. -/
theorem normalizeAll_parsed {text : String} {definitions : List Definition} (accepted : parse text = .ok definitions)
    (made : MadeOf records registry) :
    match normalizeAll registry .standard (definitions.map (·.draft)) with
    | (results, none) =>
      List.Forall₂ (fun (definition : Definition) result => normalize registry .standard definition.draft = .ok result)
        definitions results ∧
      ∀ definition ∈ definitions, (precedence records definition.name).isSome || definitionFits definition
    | (results, some failure) =>
      (failure = .overflow ∨ failure = .tooManyDigits) ∧ ∃ before definition after, definitions = before ++ definition :: after ∧
        List.Forall₂ (fun (definition : Definition) result => normalize registry .standard definition.draft = .ok result)
          before results ∧
        precedence records definition.name = none ∧ definitionFits definition = false := by
  obtain ⟨placed, spelled, -⟩ := accepted_laid accepted
  clear accepted
  induction spelled with
  | nil => exact ⟨.nil, by simp⟩
  | @cons definition definitions _ _ first _ ih =>
    have agrees := normalize_agrees made first
    rw [List.map_cons, normalizeAll]
    cases normalized : normalize registry .standard definition.draft with
    | error failure =>
      rw [normalized] at agrees
      obtain ⟨unfit, cause⟩ := agrees
      obtain ⟨absent, great⟩ := Bool.or_eq_false_iff.mp unfit
      exact ⟨cause, [], definition, definitions, rfl, .nil, by simpa using absent, great⟩
    | ok result =>
      rw [normalized] at agrees
      cases others : normalizeAll registry .standard (definitions.map (·.draft)) with
      | mk results failure =>
        rw [others] at ih
        cases failure with
        | none =>
          obtain ⟨each, fit⟩ := ih
          exact ⟨.cons normalized each, List.forall_mem_cons.mpr ⟨agrees, fit⟩⟩
        | some failure =>
          obtain ⟨cause, before, other, after, rfl, each, rest⟩ := ih
          exact ⟨cause, definition :: before, other, after, rfl, .cons normalized each, rest⟩

end

theorem normalizeAll_parsed_nested : ∃ definitions result,
    parse "A ::= SEQUENCE \x7b b [0] ENUMERATED \x7b c (0), ... \x7d \x7d" = .ok definitions ∧
    normalizeAll none .standard (definitions.map (·.draft)) = ([result], none) := by
  obtain ⟨definitions, accepted, single, fit⟩ : ∃ definitions,
      parse "A ::= SEQUENCE \x7b b [0] ENUMERATED \x7b c (0), ... \x7d \x7d" = .ok definitions ∧ definitions.length = 1 ∧
        definitions.all definitionFits = true := ⟨_, by cbv, rfl, rfl⟩
  have outcome := @normalizeAll_parsed [] none _ _ accepted rfl
  cases normalized : normalizeAll none .standard (definitions.map (·.draft)) with
  | mk results failure =>
    rw [normalized] at outcome
    cases failure with
    | none =>
      obtain ⟨result, rfl⟩ := List.length_eq_one_iff.mp (outcome.1.length_eq.symm.trans single)
      exact ⟨definitions, result, accepted, normalized⟩
    | some failure =>
      obtain ⟨-, before, definition, after, rfl, -, -, unfit⟩ := outcome
      simp [unfit] at fit

private def greatBound : List Char := "A ::= Unsigned (0..2".toList ++ List.replicate 308 '0' ++ [')']

private theorem greatBound_outcome : (match readContent greatBound with
    | .error _ => false
    | .ok definitions =>
      let (results, failure) := normalizeAll none .standard (definitions.map (·.draft))
      results.isEmpty && failure == some .overflow) = true := by
  decide +kernel

theorem normalizeAll_overflows : ∃ definitions, parse (String.ofList greatBound) = .ok definitions ∧
    normalizeAll none .standard (definitions.map (·.draft)) = ([], some .overflow) := by
  have outcome := greatBound_outcome
  have unified : unifyLineEnds greatBound = greatBound := by decide +kernel
  cases read : readContent greatBound with
  | error fault => simp [read] at outcome
  | ok definitions =>
    refine ⟨definitions, ?_, ?_⟩
    · rw [parse_eq_ok, String.toList_ofList, unified, read]
    · simpa [read, Prod.ext_iff] using outcome

end TypeCatalog.Proofs
