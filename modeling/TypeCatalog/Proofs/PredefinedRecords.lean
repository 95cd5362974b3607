import TypeCatalog.Predefined
import TypeCatalog.Proofs.RegistryContents
import TypeCatalog.Proofs.RecordValidity

/-! The records of a document of predefined types. If the document is valid, each of its forms has a record under the
same name, and the registry of the records gives the last one under every name. The records are valid, but for those
that show an integer with too many digits: the refusal of their type as a name tells the type. -/

namespace TypeCatalog.Proofs
open Schema Registry

/-- The limits of a form that its record shows: those of the values if there is a greatest one, and the size, or else
the greatest length. -/
def shownLimits (form : Data) : List Data :=
  if (form.find? "primitive").isSome then []
  else
    (if (form.find? "maximum").isSome then (form.find? "minimum").toList ++ (form.find? "maximum").toList else []) ++
      ((form.find? "size").or (form.find? "length")).toList

/-- A limit that the record of a form shows is an integer with too many digits. -/
def ShowsOverlong (form : Data) : Prop := ∃ n : Int, .int n ∈ shownLimits form ∧ Nat.pow 10 digitLimit ≤ n.natAbs

/-- The record of a form: its alias is the name of the form and its name the one for the catalogue. It is valid unless
it shows an integer with too many digits. -/
structure Catalogued (form record : Data) : Prop where
  titles : ∃ label, form.find? "name" = some (.text label) ∧ title .byAlias record = some label ∧
    title .byName record = some (Name.ofType label)
  valid : ¬ ShowsOverlong form → Standard.repository.validate Standard.recordId record = .ok ()
  refused : ShowsOverlong form → Standard.repository.validate Standard.recordId record = .error .tooManyDigits

private theorem shown_field {form limit : Data} (shown : limit ∈ shownLimits form) :
    ∃ name ∈ ["minimum", "maximum", "length", "size"], form.find? name = some limit := by
  rw [shownLimits] at shown
  split at shown
  · cases shown
  rcases List.mem_append.mp shown with bound | length
  · split at bound
    · rcases List.mem_append.mp bound with low | high
      · exact ⟨"minimum", by simp, Option.mem_toList.mp low⟩
      · exact ⟨"maximum", by simp, Option.mem_toList.mp high⟩
    · cases bound
  · rcases Option.or_eq_some_iff.mp (Option.mem_toList.mp length) with size | ⟨-, length⟩
    · exact ⟨"size", by simp, size⟩
    · exact ⟨"length", by simp, length⟩

section
variable {thorough : Bool} {data : Data} {fields : Fields}

/-- Data without parts can be written unless it is an integer with too many digits. -/
private theorem writable_scalar (scalar : data.depth = 0) :
    data.isWritable = true ↔ ∀ n : Int, data = .int n → ¬ Nat.pow 10 digitLimit ≤ n.natAbs := by
  cases data with
  | int n =>
    rw [writable_int]
    simp
  | null | bool | real | text => exact iff_of_true rfl nofun
  | array | object => cases scalar

private theorem limit_scalar (accepted : check .draft7 thorough data Standard.limit = .ok true) : data.depth = 0 := by
  cases data with
  | null | bool | int | real | text => rfl
  | array | object =>
    have refused : both thorough (reject [_]) (fun _ => .ok true) = .ok true := accepted
    exact absurd (both_true.mp refused).1 (reject_true _)

private theorem natural_scalar (accepted : check .draft7 thorough data Standard.natural = .ok true) :
    data.depth = 0 := by
  have typed := ((typed_true rfl rfl rfl).mp accepted).1
  cases data with
  | array | object => cases typed
  | null | bool | int | real | text => rfl

/-- A form that a valid document may have. -/
inductive IsForm : Data → Prop where
  | primitive {fields : Fields} {label : String} {tag : Data} (labelled : fields.find? "name" = some (.text label))
      (tagged : fields.find? "primitive" = some tag) (integer : Dialect.draft7.hasType? "integer" tag = some true) :
      IsForm (.object fields)
  | derived {fields : Fields} {label base : String} (labelled : fields.find? "name" = some (.text label))
      (based : fields.find? "base" = some (.text base)) (untagged : fields.find? "primitive" = none)
      (scalar : ∀ limit ∈ shownLimits (.object fields), limit.depth = 0) : IsForm (.object fields)

private theorem primitive_form (accepted : check .draft7 thorough data Standard.primitiveForm = .ok true) :
    IsForm data := by
  obtain ⟨fields, rfl, present, properties, -⟩ := closed_object accepted
  simp only [List.forall_mem_cons] at present properties
  obtain ⟨⟨name, labelled⟩, ⟨tag, tagged⟩, -⟩ := present
  obtain ⟨label, rfl⟩ := string_true.mp (properties.1 name labelled)
  exact .primitive labelled tagged (integer_true.mp (properties.2.1 tag tagged))

private theorem derived_form (accepted : check .draft7 thorough data Standard.derivedForm = .ok true) :
    IsForm data := by
  obtain ⟨fields, rfl, present, properties, closed⟩ := closed_object accepted
  simp only [List.forall_mem_cons] at present properties
  obtain ⟨⟨name, labelled⟩, ⟨word, based⟩, -⟩ := present
  obtain ⟨names, bases, minimum, maximum, length, size, -⟩ := properties
  obtain ⟨label, rfl⟩ := string_true.mp (names name labelled)
  obtain ⟨base, rfl⟩ := string_true.mp (bases word based)
  refine .derived labelled based (closed "primitive" rfl) ?_
  intro limit shown
  obtain ⟨name, listed, found⟩ := shown_field shown
  simp only [List.mem_cons, List.not_mem_nil, or_false] at listed
  rcases listed with rfl | rfl | rfl | rfl
  · exact limit_scalar (minimum limit found)
  · exact limit_scalar (maximum limit found)
  · exact natural_scalar (length limit found)
  · exact natural_scalar (size limit found)

private theorem valid_forms (valid : Standard.repository.validate Standard.predefinedId data = .ok ()) :
    ∃ (fields : Fields) (forms : List Data), data = .object fields ∧
      fields.find? "definitions" = some (.array forms) ∧ ∀ form ∈ forms, IsForm form := by
  have accepted := (validate_ok_iff rfl fun _ => rfl).mp valid
  obtain ⟨schema, document⟩ := objectDocument_true _ _ _
  obtain ⟨fields, rfl, keywords⟩ := (document data).mp accepted
  simp only [named, List.map_cons, List.map_nil, List.forall_mem_cons] at keywords
  obtain ⟨needed, given, -⟩ := keywords
  have present := (required_true (by decide)).mp needed
  have properties := (properties_true (by decide)).mp given
  simp only [List.forall_mem_cons] at present properties
  obtain ⟨listed, found⟩ := Option.isSome_iff_exists.mp present.1
  obtain ⟨typed, keywords⟩ := (typed_true rfl rfl rfl).mp (properties.1 listed found)
  cases listed with
  | array forms =>
    refine ⟨fields, forms, rfl, found, fun form member => ?_⟩
    have chosen := items_true.mp (keywords _ List.mem_cons_self) form member
    rw [check_plain rfl rfl] at chosen
    obtain ⟨alternative, offered, held⟩ := oneOf_true chosen
    simp only [List.mem_cons, List.not_mem_nil, or_false] at offered
    rcases offered with rfl | rfl
    · exact primitive_form held
    · exact derived_form held
  | null | bool | int | real | text | object => cases typed

private theorem validate_primitive (own name : String) {tag : Data}
    (integer : Dialect.draft7.hasType? "integer" tag = some true) :
    Standard.repository.validate Standard.recordId
      (.record [("alias", .text own), ("name", .text name), ("primitive", tag)]) = .ok () := by
  rw [validate_ok_iff rfl fun _ => rfl]
  obtain ⟨schema, document⟩ := objectDocument_true _ _ _
  refine (document _).mpr ⟨_, rfl, ?_⟩
  simp only [named, List.map_cons, List.map_nil, List.forall_mem_cons, List.not_mem_nil, false_implies, implies_true,
    and_true]
  refine ⟨(required_true (by decide)).mpr ?_, (properties_true (by decide)).mpr ?_⟩
  · exact List.forall_mem_cons.mpr ⟨rfl, List.forall_mem_singleton.mpr rfl⟩
  · simp only [List.forall_mem_cons, List.not_mem_nil, false_implies, implies_true, and_true]
    refine ⟨?_, ?_, ?_, nofun, nofun⟩
    · rintro _ ⟨⟩
      exact string_true.mpr ⟨own, rfl⟩
    · rintro _ ⟨⟩
      exact string_true.mpr ⟨name, rfl⟩
    · rintro _ ⟨⟩
      exact integer_true.mpr integer

/-- The type of a form can be written if the limits can that are shown. -/
private theorem writable_constrained (untagged : fields.find? "primitive" = none) (base : String) :
    (Predefined.constrained base fields).isWritable = true ↔
      ∀ limit ∈ shownLimits (.object fields), limit.isWritable = true := by
  have pair (low high : Data) :
      (Data.limits low high).isWritable = true ↔ low.isWritable = true ∧ high.isWritable = true := by
    rw [Data.limits, writable_record]
    simp
  have word : (Data.text base).isWritable = true := rfl
  have zero : (Data.int 0).isWritable = true := rfl
  rw [Predefined.constrained, writable_record, shownLimits]
  simp only [Data.find?, untagged, Predefined.entry, Fields.has, List.forall_mem_append]
  rw [Option.isSome_none, if_neg Bool.false_ne_true, List.forall_mem_append, List.forall_mem_singleton, word]
  simp only [true_and]
  apply and_congr
  · rcases Option.eq_none_or_eq_some (fields.find? "maximum") with maximum | ⟨high, maximum⟩
    · simp [maximum]
    · rcases Option.eq_none_or_eq_some (fields.find? "minimum") with minimum | ⟨low, minimum⟩
      · simp [maximum, minimum, zero]
      · simp [maximum, minimum]
  · rcases Option.eq_none_or_eq_some (fields.find? "size") with size | ⟨size', size⟩
    · rcases Option.eq_none_or_eq_some (fields.find? "length") with length | ⟨longest, length⟩
      · simp [size, length]
      · simp [size, length, pair, zero]
    · simp [size]

private theorem shown_bare {label base : Data} (labelled : fields.find? "name" = some label)
    (based : fields.find? "base" = some base) (two : fields.length = 2) : shownLimits (.object fields) = [] := by
  rw [List.eq_nil_iff_forall_not_mem]
  intro limit shown
  obtain ⟨name, listed, found⟩ := shown_field shown
  have third : ["name", "base", name].Nodup := by
    simp only [List.mem_cons, List.not_mem_nil, or_false] at listed
    rcases listed with rfl | rfl | rfl | rfl <;> decide
  have count : ["name", "base", name].length ≤ fields.length := by
    refine found_length third ?_
    simp only [List.forall_mem_cons, List.not_mem_nil, false_implies, implies_true, and_true]
    exact ⟨⟨_, labelled⟩, ⟨_, based⟩, ⟨_, found⟩⟩
  rw [two] at count
  exact Nat.not_succ_le_self 2 count

private theorem overlong_iff (scalar : ∀ limit ∈ shownLimits data, limit.depth = 0) :
    ShowsOverlong data ↔ ¬ ∀ limit ∈ shownLimits data, limit.isWritable = true := by
  constructor
  · rintro ⟨n, shown, long⟩ writable
    exact (writable_scalar (scalar _ shown)).mp (writable _ shown) n rfl long
  · intro unwritable
    by_contra short
    refine unwritable fun limit shown => (writable_scalar (scalar limit shown)).mpr ?_
    rintro n rfl long
    exact short ⟨n, shown, long⟩

def formType (base : String) (fields : Fields) : Data :=
  if fields.length == 2 then .text base else Predefined.constrained base fields

private theorem formType_isType (base : String) : IsType (formType base fields) := by
  rw [formType]
  split
  · exact .name base
  · exact .object base _

private theorem formType_writable {label base : Data} (labelled : fields.find? "name" = some label)
    (based : fields.find? "base" = some base) (untagged : fields.find? "primitive" = none)
    (scalar : ∀ limit ∈ shownLimits (.object fields), limit.depth = 0) (word : String) :
    (formType word fields).isWritable = true ↔ ¬ ShowsOverlong (.object fields) := by
  rw [overlong_iff scalar, not_not, formType]
  split
  next two =>
    rw [shown_bare labelled based (eq_of_beq two)]
    exact iff_of_true rfl (List.forall_mem_nil _)
  next => exact writable_constrained untagged word

theorem form_catalogued (form : IsForm data) :
    ∃ record, Predefined.record data = .ok record ∧ Catalogued data record := by
  cases form with
  | @primitive fields label tag labelled tagged integer =>
    refine ⟨.record [("alias", .text label), ("name", .text (Name.ofType label)), ("primitive", tag)], ?_, ?_, ?_, ?_⟩
    · simp only [Predefined.record, Predefined.field, labelled, tagged, Name.ofTypeData, bind, Except.bind]
      rfl
    · exact ⟨label, labelled, rfl, rfl⟩
    · exact fun _ => validate_primitive label _ integer
    · rintro ⟨n, shown, -⟩
      rw [shownLimits, Data.find?, tagged] at shown
      cases shown
  | @derived fields label base labelled based untagged scalar =>
    let type := formType (Name.ofType base) fields
    have typed : IsType type := formType_isType _
    have checked := validate_made label (Name.ofType label) (.inl rfl) (.inl rfl) typed
    have writable := formType_writable labelled based untagged scalar (Name.ofType base)
    refine ⟨.record [("alias", .text label), ("name", .text (Name.ofType label)), ("type", type)], ?_, ?_, ?_, ?_⟩
    · simp only [Predefined.record, Predefined.field, labelled, untagged, based, Name.ofTypeData, bind, Except.bind]
      rfl
    · exact ⟨label, labelled, rfl, rfl⟩
    · intro short
      exact checked.trans (if_pos (writable.mpr short))
    · intro long
      exact checked.trans (if_neg fun fits => writable.mp fits long)

private theorem forms_catalogued {forms : List Data} (each : ∀ form ∈ forms, IsForm form) :
    ∃ records, forms.mapM Predefined.record = .ok records ∧ List.Forall₂ Catalogued forms records := by
  induction forms with
  | nil => exact ⟨[], rfl, .nil⟩
  | cons form rest ih =>
    obtain ⟨first, others⟩ := List.forall_mem_cons.mp each
    obtain ⟨record, made, held⟩ := form_catalogued first
    obtain ⟨records, more, all⟩ := ih others
    refine ⟨record :: records, ?_, .cons held all⟩
    rw [List.mapM_cons, made, more]
    rfl

private theorem catalogued_bears {form record : Data} {label : String} (held : Catalogued form record) :
    bears .byAlias (.text label) record = true ↔ form.find? "name" = some (.text label) := by
  obtain ⟨own, labelled, titled, -⟩ := held.titles
  rw [bears_of_key (keyOf_title titled), text_same, beq_iff_eq, labelled]
  simp

private theorem catalogued_form {forms records : List Data} (all : List.Forall₂ Catalogued forms records) :
    ∀ record ∈ records, ∃ form ∈ forms, Catalogued form record := by
  induction all with
  | nil => exact List.forall_mem_nil _
  | cons held _ ih =>
    refine List.forall_mem_cons.mpr ⟨⟨_, List.mem_cons_self, held⟩, fun record listed => ?_⟩
    obtain ⟨form, member, own⟩ := ih record listed
    exact ⟨form, List.mem_cons_of_mem _ member, own⟩

private theorem Catalogued.titled {form record : Data} (held : Catalogued form record) : Titled record := by
  obtain ⟨label, -, first, second⟩ := held.titles
  intro index
  cases index with
  | byAlias => exact ⟨label, first⟩
  | byName => exact ⟨Name.ofType label, second⟩

/-- The last record with an alias is that of the last form with the name. -/
private theorem lastWith_catalogued {before after records : List Data} {form : Data} {label : String}
    (all : List.Forall₂ Catalogued (before ++ form :: after) records)
    (labelled : form.find? "name" = some (.text label))
    (last : ∀ other ∈ after, other.find? "name" ≠ some (.text label)) :
    ∃ record, records[before.length]? = some record ∧ lastWith .byAlias (.text label) records = some record := by
  induction before generalizing records with
  | nil =>
    obtain ⟨record, later, held, others, rfl⟩ := List.forall₂_cons_left_iff.mp all
    refine ⟨record, rfl, ?_⟩
    have none : lastWith .byAlias (.text label) later = none := by
      rw [lastWith_none]
      intro other listed
      obtain ⟨source, member, own⟩ := catalogued_form others other listed
      rw [Bool.eq_false_iff]
      exact (catalogued_bears own).not.mpr (last source member)
    rw [lastWith_cons, none, (catalogued_bears held).mpr labelled]
    rfl
  | cons other before ih =>
    obtain ⟨record, later, held, others, rfl⟩ := List.forall₂_cons_left_iff.mp all
    obtain ⟨found, place, answered⟩ := ih others
    refine ⟨found, place, ?_⟩
    rw [lastWith_cons, answered]
    rfl

/-- A valid document of predefined types has a record for each of its forms, in their order. The alias of a record is the
name of the form and its name the one for the catalogue, and it is valid unless it shows an integer with too many digits.
A registry can be made of the records, and under the name of a form it has the record of the last form with this name. -/
theorem predefined_catalogued (valid : Standard.repository.validate Standard.predefinedId data = .ok ()) :
    ∃ forms records registry, data.find? "definitions" = some (.array forms) ∧ Predefined.records data = .ok records ∧
      List.Forall₂ Catalogued forms records ∧ Registry.ofRecords records = .ok registry ∧
      ∀ (before after : List Data) (form : Data) (label : String), forms = before ++ form :: after →
        form.find? "name" = some (.text label) → (∀ other ∈ after, other.find? "name" ≠ some (.text label)) →
        ∃ record, records[before.length]? = some record ∧ answer registry (.text label) = some record := by
  obtain ⟨fields, forms, rfl, found, each⟩ := valid_forms valid
  obtain ⟨records, made, all⟩ := forms_catalogued each
  have titled : ∀ record ∈ records, Titled record := by
    intro record listed
    obtain ⟨_, -, held⟩ := catalogued_form all record listed
    exact held.titled
  obtain ⟨registry, built⟩ := ofRecords_ok_iff.mpr fun record listed => (titled record listed).listable
  refine ⟨forms, records, registry, found, ?_, all, built, ?_⟩
  · simp only [Predefined.records, Predefined.field, found, bind, Except.bind]
    exact made
  · rintro before after form label rfl labelled last
    obtain ⟨record, place, answered⟩ := lastWith_catalogued all labelled last
    refine ⟨record, place, ?_⟩
    rw [answer_eq built, answered]
    rfl

end

private def twice : Data :=
  .record [("definitions", .array
    [.record [("name", .text "A1"), ("primitive", .int (-1))],
     .record [("name", .text "A1"), ("base", .text "Unsigned"), ("maximum", .text "MAX"), ("length", .int 2)]])]

private def secondRecord : Data :=
  .record [("alias", .text "A1"), ("name", .text "a-1"), ("type", .record [("base", .text "unsigned"),
    ("minimum", .int 0), ("maximum", .text "MAX"), ("length", .limits (.int 0) (.int 2))])]

/-- The second of two forms with one name has the record that the registry gives. -/
theorem predefined_catalogued_twice : Standard.repository.validate Standard.predefinedId twice = .ok () ∧
    ∃ record registry, Predefined.records twice = .ok [record, secondRecord] ∧
      Registry.ofRecords [record, secondRecord] = .ok registry ∧ answer registry (.text "A1") = some secondRecord := by
  have valid : Standard.repository.validate Standard.predefinedId twice = .ok () := by rfl
  obtain ⟨forms, records, registry, listed, made, -, built, answers⟩ := predefined_catalogued valid
  have known : ∃ record, Predefined.records twice = .ok [record, secondRecord] := ⟨_, by rfl⟩
  obtain ⟨record, known⟩ := known
  cases made.symm.trans known
  cases listed
  obtain ⟨found, place, answered⟩ := answers [_] [] _ "A1" rfl rfl (List.forall_mem_nil _)
  cases place
  exact ⟨valid, record, registry, known, built, answered⟩

private def limitedForm (n : Int) : Data :=
  .record [("name", .text "A"), ("base", .text "Unsigned"), ("maximum", .int n)]

/-- The least integer with too many digits may be a limit in a document, but the record that shows it is not valid. -/
theorem predefined_unvalidated : ¬ ∀ data records, Standard.repository.validate Standard.predefinedId data = .ok () →
    Predefined.records data = .ok records →
    ∀ record ∈ records, Standard.repository.validate Standard.recordId record = .ok () := by
  intro always
  have valid (n : Int) : Standard.repository.validate Standard.predefinedId
      (.record [("definitions", .array [limitedForm n])]) = .ok () := by
    rfl
  have shown (n : Int) : shownLimits (limitedForm n) = [.int n] := rfl
  let n : Int := (Nat.pow 10 digitLimit : Nat)
  have form : IsForm (limitedForm n) := by
    refine @IsForm.derived _ "A" "Unsigned" rfl rfl rfl ?_
    exact (shown n).symm ▸ List.forall_mem_singleton.mpr rfl
  obtain ⟨record, made, held⟩ := form_catalogued form
  have records : Predefined.records (.record [("definitions", .array [limitedForm n])]) = .ok [record] := by
    change [limitedForm n].mapM Predefined.record = _
    rw [List.mapM_cons, made]
    rfl
  have refused := held.refused ⟨n, shown n ▸ List.mem_singleton_self _, (Int.natAbs_natCast _).ge⟩
  rw [always _ _ (valid n) records record (List.mem_singleton_self _)] at refused
  cases refused

end TypeCatalog.Proofs
