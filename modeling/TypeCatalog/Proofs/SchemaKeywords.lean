import TypeCatalog.Proofs.Attempts
import TypeCatalog.Proofs.ObjectFields
import TypeCatalog.Schema.Standard

/-! What it means for data to be accepted by a schema, keyword by keyword. -/

namespace TypeCatalog.Proofs
open Schema

section
variable {thorough : Bool} {dialect : Dialect} {schema fields : Fields} {data : Data}

theorem both_true {first : Answer} {second : Unit → Answer} :
    both thorough first second = .ok true ↔ first = .ok true ∧ second () = .ok true := by
  cases first with
  | error failure => simp [both, bind, Except.bind]
  | ok accepted =>
    cases accepted with
    | true => simp [both, bind, Except.bind]
    | false =>
      cases thorough with
      | false => simp [both, bind, Except.bind, pure, Except.pure]
      | true =>
        simp only [both, bind, Except.bind]
        cases second () <;> simp [pure, Except.pure]

theorem both_last (answer : Answer) : both thorough answer (fun _ => .ok true) = answer := by
  cases answer with
  | error failure => rfl
  | ok accepted => cases accepted <;> cases thorough <;> rfl

theorem every_true {α : Type} {ask : α → Answer} {list : List α} :
    every thorough ask list = .ok true ↔ ∀ member ∈ list, ask member = .ok true := by
  induction list with
  | nil => simp [every]
  | cons first rest ih => rw [every, both_true, ih, List.forall_mem_cons]

theorem reject_true (told : List Data) : reject told ≠ .ok true := by
  rw [reject]
  split <;> simp

theorem checkKeywords_nil : checkKeywords dialect thorough schema data [] = .ok true := rfl

theorem checkKeywords_cons (keyword : Key × Data) : ∃ answer, ∀ rest,
    checkKeywords dialect thorough schema data (keyword :: rest) =
      both thorough answer fun _ => checkKeywords dialect thorough schema data rest := by
  obtain ⟨key, value⟩ := keyword
  cases value <;> exact ⟨_, fun rest => rfl⟩

theorem checkKeywords_true {keywords : Fields} :
    checkKeywords dialect thorough schema data keywords = .ok true ↔
      ∀ keyword ∈ keywords, checkKeywords dialect thorough schema data [keyword] = .ok true := by
  induction keywords with
  | nil => simp [checkKeywords_nil]
  | cons first rest ih =>
    obtain ⟨answer, asked⟩ := @checkKeywords_cons thorough dialect schema data first
    rw [List.forall_mem_cons, ← ih, asked rest, asked [], both_true, both_true, checkKeywords_nil]
    simp

theorem checkProperties_true (later : dialect ≠ .draft3) {named : Fields} :
    checkProperties dialect thorough fields named = .ok true ↔
      ∀ property ∈ named, ∀ value, fields.get? property.1 = some value →
        check dialect thorough value property.2 = .ok true := by
  induction named with
  | nil => simp [checkProperties]
  | cons first rest ih =>
    obtain ⟨key, inner⟩ := first
    rw [List.forall_mem_cons, ← ih, checkProperties.eq_def]
    dsimp only
    rw [if_pos later, both_true]
    cases fields.get? key <;> simp

theorem annotation_true {keyword : Key × Data} (unknown : dialect.keyword? keyword.1 = none) :
    checkKeywords dialect thorough schema data [keyword] = .ok true := by
  obtain ⟨key, value⟩ := keyword
  dsimp only at unknown
  have asked : checkKeywords dialect thorough schema data [(key, value)] =
      both thorough (.ok true) fun _ => .ok true := by
    cases value <;> simp only [checkKeywords, unknown]
  rw [asked, both_true]
  simp

theorem type_true {name : String} {answer : Bool} (known : dialect.hasType? name data = some answer) :
    checkKeywords dialect thorough schema data [(.text "type", .text name)] = .ok true ↔ answer = true := by
  have typed : checkType dialect (.text name) data = if answer then .ok true else reject [data] := by
    simp only [checkType, typeEntries, some?, Dialect.hasType, known, bind, Except.bind]
    cases answer <;> rfl
  change both thorough (checkType dialect (.text name) data) (fun _ => .ok true) = .ok true ↔ _
  rw [both_true, typed]
  cases answer with
  | true => simp
  | false => simp [reject_true]

theorem required_true (later : dialect ≠ .draft3) {names : List String} :
    checkKeywords dialect thorough schema (.object fields) [(.text "required", Standard.texts names)] = .ok true ↔
      ∀ name ∈ names, (fields.find? name).isSome = true := by
  have asked : checkKeywords dialect thorough schema (.object fields) [(.text "required", Standard.texts names)] =
      both thorough (every thorough (fun name => do
        if (fields.get? (← name.toKey)).isSome then return true else reject [name]) (names.map .text))
        fun _ => .ok true := by
    cases dialect with
    | draft3 => contradiction
    | draft4 | draft6 | draft7 | draft2019 | draft2020 => rfl
  rw [asked, both_true, every_true, List.forall_mem_map]
  simp only [and_true]
  apply forall₂_congr
  intro name _
  change (if (fields.find? name).isSome then Except.ok true else reject [.text name]) = .ok true ↔ _
  cases (fields.find? name).isSome with
  | true => simp
  | false => simp [reject_true]

theorem properties_true (later : dialect ≠ .draft3) {properties : List (String × Data)} :
    checkKeywords dialect thorough schema (.object fields) [(.text "properties", .record properties)] = .ok true ↔
      ∀ property ∈ properties, ∀ value, fields.find? property.1 = some value →
        check dialect thorough value property.2 = .ok true := by
  change both thorough (checkProperties dialect thorough fields (named properties)) (fun _ => .ok true) = .ok true ↔ _
  rw [both_true, checkProperties_true later, named, List.forall_mem_map]
  simp [Fields.find?]

/-- The fields that are left to the keyword for those that a schema does not know. -/
theorem extras_known {known : Fields} (given : (schema.find? "properties").getD (.object []) = .object known) :
    extras schema fields = .ok (fields.filter fun field => (known.get? field.1).isNone) := by
  have kept (found : Fields) :
      List.filterAuxM (fun field => return !(← isKnown field.1 (.object known))) fields found =
        (.ok ((fields.filter fun field => (known.get? field.1).isNone).reverse ++ found) : Except Failure Fields) := by
    induction fields generalizing found with
    | nil => rfl
    | cons field rest ih =>
      rw [List.filter_cons]
      cases held : known.get? field.1 with
      | none =>
        have asked := ih (field :: found)
        simp only [List.filterAuxM, isKnown, held, bind, Except.bind, pure, Except.pure, cond] at asked ⊢
        simpa using asked
      | some value =>
        have asked := ih found
        simp only [List.filterAuxM, isKnown, held, bind, Except.bind, pure, Except.pure, cond] at asked ⊢
        simpa using asked
  rw [extras, given, List.filterM, kept []]
  change Except.ok (List.reverse (_ ++ [])) = _
  rw [List.append_nil, List.reverse_reverse]

theorem extras_all (bare : schema.find? "properties" = none) : extras schema fields = .ok fields := by
  rw [@extras_known schema fields [] (by rw [bare]; rfl)]
  exact congrArg Except.ok (List.filter_eq_self.mpr fun _ _ => rfl)

/-- A schema that knows all of the fields there may be. -/
theorem closed_true {known : Fields} (given : schema.find? "properties" = some (.object known)) :
    checkKeywords dialect thorough schema (.object fields) [(.text "additionalProperties", .bool false)] = .ok true ↔
      ∀ field ∈ fields, (known.get? field.1).isSome = true := by
  change both thorough (extras schema fields >>= fun extras =>
    if false || extras.isEmpty then .ok true else reject (extras.map (·.1.data))) (fun _ => .ok true) = .ok true ↔ _
  rw [@extras_known schema fields known (by rw [given]; rfl), both_true]
  have none : (fields.filter fun field => (known.get? field.1).isNone) = [] ↔
      ∀ field ∈ fields, (known.get? field.1).isSome = true := by
    simp [List.filter_eq_nil_iff, Option.isSome_iff_ne_none]
  rw [← none]
  cases fields.filter fun field => (known.get? field.1).isNone with
  | nil => simp [bind, Except.bind]
  | cons field rest => simp [bind, Except.bind, reject_true]

theorem additional_true (bare : schema.find? "properties" = none) {inner : Fields} :
    checkKeywords dialect thorough schema (.object fields) [(.text "additionalProperties", .object inner)] = .ok true ↔
      ∀ field ∈ fields, check dialect thorough field.2 (.object inner) = .ok true := by
  change both thorough (extras schema fields >>= fun extras =>
    every thorough (fun field => check dialect thorough field.2 (.object inner)) extras) (fun _ => .ok true) = .ok true ↔ _
  rw [extras_all bare, both_true]
  change every thorough _ fields = .ok true ∧ _ ↔ _
  rw [every_true]
  simp

/-- A schema inside of another that states neither an identifier nor a dialect. -/
theorem check_plain {inner : Fields} (unnamed : inner.find? dialect.idField = none)
    (silent : inner.find? "$schema" = none) :
    check dialect thorough data (.object inner) = checkKeywords dialect thorough inner data inner := by
  rw [check, Dialect.checkId, unnamed, Dialect.stated, silent]
  rfl

theorem typed_true {name : String} {answer : Bool} {more : List (String × Data)}
    (known : Dialect.draft7.hasType? name data = some answer) (unnamed : more.lookup "$id" = none)
    (silent : more.lookup "$schema" = none) :
    check .draft7 thorough data (Standard.typed name more) = .ok true ↔ answer = true ∧ ∀ keyword ∈ named more,
      checkKeywords .draft7 thorough (named (("type", .text name) :: more)) data [keyword] = .ok true := by
  have noId : (named (("type", .text name) :: more)).find? "$id" = none := by
    rw [find_named, List.lookup_cons]
    exact unnamed
  have noDialect : (named (("type", .text name) :: more)).find? "$schema" = none := by
    rw [find_named, List.lookup_cons]
    exact silent
  have plain := @check_plain thorough .draft7 data _ noId noDialect
  change check .draft7 thorough data (.object (named (("type", .text name) :: more))) = .ok true ↔ _
  rw [plain, checkKeywords_true, named, List.map_cons, List.forall_mem_cons, type_true known, named]

theorem object_true {more : List (String × Data)} (unnamed : more.lookup "$id" = none)
    (silent : more.lookup "$schema" = none) :
    check .draft7 thorough data (Standard.typed "object" more) = .ok true ↔
      ∃ fields, data = .object fields ∧ ∀ keyword ∈ named more,
        checkKeywords .draft7 thorough (named (("type", .text "object") :: more)) (.object fields) [keyword] = .ok true := by
  rw [typed_true rfl unnamed silent]
  cases data with
  | object fields => simp
  | null | bool | int | real | text | array => simp

theorem string_true : check .draft7 thorough data Standard.string = .ok true ↔ ∃ text, data = .text text := by
  rw [Standard.string, typed_true rfl rfl rfl]
  cases data <;> simp [named]

theorem integer_true : check .draft7 thorough data Standard.integer = .ok true ↔
    Dialect.draft7.hasType? "integer" data = some true := by
  rw [Standard.integer, typed_true rfl rfl rfl]
  cases data <;> simp [named, Dialect.hasType?]

theorem items_true {inner : Fields} {items : List Data} :
    checkKeywords dialect thorough schema (.array items) [(.text "items", .object inner)] = .ok true ↔
      ∀ item ∈ items, check dialect thorough item (.object inner) = .ok true := by
  change both thorough (every thorough (fun item => check dialect thorough item (.object inner)) items)
    (fun _ => .ok true) = .ok true ↔ _
  rw [both_true, every_true]
  simp

/-- Data that is accepted by one of some schemas alone is accepted by one of them. -/
theorem oneOf_true {schemas : List Data}
    (accepted : checkKeywords .draft7 thorough schema data [(.text "oneOf", .array schemas)] = .ok true) :
    ∃ alternative ∈ schemas, check .draft7 true data alternative = .ok true := by
  change both thorough (checkOneOf .draft7 data schemas) (fun _ => .ok true) = .ok true at accepted
  have chosen := (both_true.mp accepted).1
  clear accepted
  induction schemas with
  | nil => exact absurd chosen (reject_true _)
  | cons first rest ih =>
    rw [checkOneOf] at chosen
    obtain ⟨answer, tried, chosen⟩ := of_bind_ok chosen
    cases answer with
    | true => exact ⟨first, List.mem_cons_self, tried⟩
    | false =>
      obtain ⟨alternative, listed, held⟩ := ih chosen
      exact ⟨alternative, List.mem_cons_of_mem _ listed, held⟩

/-- An object that may have the fields of a schema and no others. -/
theorem closed_object {names : List String} {properties : List (String × Data)}
    (accepted : check .draft7 thorough data (Standard.typed "object" [("required", Standard.texts names),
      ("additionalProperties", .bool false), ("properties", .record properties)]) = .ok true) :
    ∃ fields : Fields, data = .object fields ∧ (∀ name ∈ names, ∃ value, fields.find? name = some value) ∧
      (∀ property ∈ properties, ∀ value, fields.find? property.1 = some value →
        check .draft7 thorough value property.2 = .ok true) ∧
      ∀ name, properties.lookup name = none → fields.find? name = none := by
  obtain ⟨fields, rfl, keywords⟩ := (object_true rfl rfl).mp accepted
  simp only [named, List.map_cons, List.map_nil, List.forall_mem_cons] at keywords
  obtain ⟨needed, closed, given, -⟩ := keywords
  refine ⟨fields, rfl, ?_, (properties_true (by decide)).mp given, ?_⟩
  · intro name listed
    exact Option.isSome_iff_exists.mp ((required_true (by decide)).mp needed name listed)
  · intro name other
    exact find_unknown other ((closed_true rfl).mp closed)

theorem document_true (id title : String) (more : List (String × Data)) : ∃ schema, ∀ data,
    Schema.accepts (Standard.document id title more) data = .ok true ↔
      ∀ keyword ∈ named more, checkKeywords .draft7 false schema data [keyword] = .ok true := by
  refine ⟨named ([("$schema", .text "http://json-schema.org/draft-07/schema#"), ("$id", .text (id ++ "#")),
    ("title", .text title)] ++ more), ?_⟩
  intro data
  change checkKeywords .draft7 false _ data (named _) = .ok true ↔ _
  rw [checkKeywords_true, named, List.map_append, List.forall_mem_append]
  simp only [List.map_cons, List.map_nil, List.forall_mem_cons, List.not_mem_nil, false_implies, implies_true, and_true]
  rw [annotation_true rfl, annotation_true rfl, annotation_true rfl]
  simp [named]

theorem objectDocument_true (id title : String) (more : List (String × Data)) : ∃ schema, ∀ data,
    Schema.accepts (Standard.document id title (("type", .text "object") :: more)) data = .ok true ↔
      ∃ fields, data = .object fields ∧ ∀ keyword ∈ named more,
        checkKeywords .draft7 false schema (.object fields) [keyword] = .ok true := by
  obtain ⟨schema, accepts⟩ := document_true id title (("type", .text "object") :: more)
  refine ⟨schema, fun data => ?_⟩
  rw [accepts, named, List.map_cons, List.forall_mem_cons, type_true rfl]
  cases data <;> simp [named]

theorem validate_ok_iff {repository : Repository} {id : String} {root : Data}
    (found : repository.schemas.lookup (Repository.baseOf id) = some (.plain root))
    (whole : ∀ data, Repository.reach (.plain root) data = root) :
    repository.validate id data = .ok () ↔ Schema.accepts root data = .ok true := by
  rw [Repository.validate, found]
  dsimp only
  rw [whole]
  cases Schema.accepts root data with
  | error failure => simp [bind, Except.bind]
  | ok accepted => cases accepted <;> simp [bind, Except.bind, pure, Except.pure, throw, throwThe, MonadExceptOf.throw]

end

end TypeCatalog.Proofs
