import TypeCatalog.Proofs.JsonLexemes
import TypeCatalog.Proofs.ObjectFields

/-! JSON text read back. Data without floating point numbers, whose integers are not too long and whose objects have text
keys, each of them once, comes back from its JSON text as it was, with its keys in their order, whatever the indentation is
that its text has. -/

namespace TypeCatalog.Proofs
open Json

/-- Data that JSON text tells in full. -/
inductive Lossless : Data → Prop where
  | null : Lossless .null
  | bool (value : Bool) : Lossless (.bool value)
  | int {n : Int} (short : (natDigits n.natAbs).length ≤ digitLimit) : Lossless (.int n)
  | text (value : String) : Lossless (.text value)
  | array {items : List Data} (each : ∀ item ∈ items, Lossless item) : Lossless (.array items)
  | object {entries : List (String × Data)} (apart : (entries.map (·.1)).Nodup)
      (each : ∀ entry ∈ entries, Lossless entry.2) : Lossless (.object (named entries))

theorem ofList_named {entries : List (String × Data)} (apart : (entries.map (·.1)).Nodup) :
    Fields.ofList (named entries) = named entries := by
  induction entries using List.reverseRecOn with
  | nil => rfl
  | append_singleton entries entry ih =>
    rw [List.map_append, List.nodup_append] at apart
    have new : entry.1 ∉ entries.map (·.1) := fun member => apart.2.2 _ member _ List.mem_cons_self rfl
    have front : Fields.ofList (named (entries ++ [entry])) =
        Fields.put (.text entry.1) entry.2 (Fields.ofList (named entries)) := by
      rw [Fields.ofList, named, List.map_append, List.foldl_append]
      rfl
    rw [front, ih apart.1, put_named new]

theorem Lossless.items {items : List Data} : Lossless (.array items) → ∀ item ∈ items, Lossless item
  | .array each => each

theorem Lossless.fields {fields : List (Key × Data)} : Lossless (.object fields) →
    Fields.ofList fields = fields ∧ ∀ field ∈ fields, (∃ name, field.1 = .text name) ∧ Lossless field.2
  | .object apart each => ⟨ofList_named apart, List.forall_mem_map.mpr fun entry listed => ⟨⟨_, rfl⟩, each entry listed⟩⟩

def Spaces (text : List Char) : Prop := ∀ c ∈ text, isSpace c = true

def Blank (margin : Margin) : Prop := ∀ lead ∈ margin, ∀ depth, Spaces (lead depth)

section
variable {margin : Margin} {depth : Nat} {spaces text rest : List Char} {c : Char}

theorem lineBreak_spaces (blank : Blank margin) : Spaces (lineBreak margin depth) := by
  cases margin with
  | none => exact List.forall_mem_nil _
  | some lead => exact List.forall_mem_cons.mpr ⟨rfl, blank lead rfl depth⟩

theorem separator_spaces (blank : Blank margin) : ∃ spaces, separator margin depth = ',' :: spaces ∧ Spaces spaces := by
  cases margin with
  | none => exact ⟨[' '], rfl, by simp [Spaces, isSpace]⟩
  | some lead => exact ⟨_, rfl, lineBreak_spaces blank⟩

theorem skipSpace_spaces (blank : Spaces spaces) (solid : isSpace c = false) :
    skipSpace (spaces ++ c :: rest) = c :: rest := by
  rw [skipSpace, List.dropWhile_append_of_pos blank, List.dropWhile_cons, solid]
  rfl

theorem ends_spaces (blank : Spaces spaces) (ends : EndsNumber rest) : EndsNumber (spaces ++ rest) := by
  cases spaces with
  | nil => exact ends
  | cons space spaces =>
    have white := blank space List.mem_cons_self
    simp only [isSpace, Bool.or_eq_true, beq_iff_eq] at white
    rintro _ ⟨⟩
    obtain ((rfl | rfl) | rfl) | rfl := white <;> decide

/-- What starts with neither white space nor the end of a collection. -/
def Fronted (text : List Char) : Prop := ∃ c rest, text = c :: rest ∧ isSpace c = false ∧ c ≠ ']' ∧ c ≠ '\x7d'

theorem Fronted.skip (fronted : Fronted text) (blank : Spaces spaces) : skipSpace (spaces ++ text) = text := by
  obtain ⟨c, rest, rfl, solid, -⟩ := fronted
  exact skipSpace_spaces blank solid

theorem Fronted.append (fronted : Fronted text) (rest : List Char) : Fronted (text ++ rest) := by
  obtain ⟨c, more, rfl, apart⟩ := fronted
  exact ⟨c, more ++ rest, rfl, apart⟩

theorem Fronted.parts (fronted : Fronted text) (separator : List Char) (others : List (List Char)) :
    Fronted (separator.intercalate (text :: others)) := by
  cases others with
  | nil => simpa using fronted
  | cons next others =>
    rw [List.intercalate_cons_cons, List.append_assoc]
    exact fronted.append _

/-- A text is read as data, whatever follows that does not go on with a number, if there are two steps for every
character of it. -/
structure ReadAs (text : List Char) (data : Data) : Prop where
  fronted : Fronted text
  read : ∀ rest steps, EndsNumber rest → 2 * text.length ≤ steps → readValue steps (text ++ rest) = .ok (data, rest)

structure FieldReadAs (text : List Char) (field : Key × Data) : Prop where
  parts : ∃ name value, field.1 = .text name ∧ text = writeString name.toList ++ [':', ' '] ++ value ∧ ReadAs value field.2

theorem FieldReadAs.fronted {field : Key × Data} (read : FieldReadAs text field) : Fronted text := by
  obtain ⟨name, value, -, rfl, -⟩ := read.parts
  exact ⟨'"', _, rfl, by decide⟩

section
variable {parts : List (List Char)} {gap closing : List Char} {steps : Nat}

theorem readItems_parts {items : List Data} (each : List.Forall₂ ReadAs parts items) (filled : parts ≠ []) (blank : Spaces gap)
    (blank' : Spaces closing) (rest : List Char) (enough : 2 * ((',' :: gap).intercalate parts).length < steps) :
    readItems steps ((',' :: gap).intercalate parts ++ (closing ++ ']' :: rest)) = .ok (items, rest) := by
  induction each generalizing steps with
  | nil => exact absurd rfl filled
  | @cons part item parts items own others ih =>
    obtain ⟨steps, rfl⟩ : ∃ fewer, steps = fewer + 1 := ⟨steps - 1, by omega⟩
    cases others with
    | nil =>
      rw [List.intercalate_singleton] at enough ⊢
      have first := own.read (closing ++ ']' :: rest) steps (ends_spaces blank' (by rintro _ ⟨⟩; decide)) (by omega)
      rw [readItems, first]
      simp only [bind, Except.bind, skipSpace_spaces blank' (by decide : isSpace ']' = false)]
      rfl
    | @cons next item' parts' items' following more =>
      rw [List.intercalate_cons_cons] at enough ⊢
      simp only [List.length_append, List.length_cons] at enough
      have later : readItems steps _ = _ := ih (by simp) (by omega)
      simp only [List.append_assoc, List.cons_append]
      have first := own.read (',' :: (gap ++ ((',' :: gap).intercalate (next :: parts') ++ (closing ++ ']' :: rest)))) steps
        (by rintro _ ⟨⟩; decide) (by omega)
      have comma (tail : List Char) : skipSpace (',' :: tail) = ',' :: tail := rfl
      rw [readItems, first]
      simp only [bind, Except.bind, comma, ((following.fronted.parts _ parts').append _).skip blank, later]
      rfl

/-- A field is read up to the mark behind its value, and the fields after it if that is a comma. -/
private theorem readFields_field {name : String} {value after : List Char} {data : Data} (own : ReadAs value data)
    (ends : EndsNumber after) (enough : 2 * value.length ≤ steps) :
    (∀ rest, skipSpace after = '\x7d' :: rest →
      readFields (steps + 1) (writeString name.toList ++ [':', ' '] ++ value ++ after) = .ok ([(.text name, data)], rest)) ∧
    ∀ rest fields left, skipSpace after = ',' :: rest → readFields steps (skipSpace rest) = .ok (fields, left) →
      readFields (steps + 1) (writeString name.toList ++ [':', ' '] ++ value ++ after) =
        .ok ((.text name, data) :: fields, left) := by
  obtain ⟨body, quoted, read⟩ := readString_written name (':' :: ' ' :: (value ++ after))
  obtain ⟨c, more, rfl, solid, -⟩ := own.fronted
  have colon : skipSpace (':' :: ' ' :: (c :: more ++ after)) = ':' :: ' ' :: (c :: more ++ after) := rfl
  have space : skipSpace (' ' :: (c :: more ++ after)) = c :: more ++ after :=
    skipSpace_spaces (List.forall_mem_singleton.mpr rfl) solid
  rw [show writeString name.toList ++ [':', ' '] ++ (c :: more) ++ after =
    writeString name.toList ++ ':' :: ' ' :: (c :: more ++ after) by simp, quoted]
  constructor
  · intro rest mark
    rw [readFields, read]
    simp only [bind, Except.bind, colon, space, own.read after steps ends enough, mark]
    rfl
  · intro rest fields left mark others
    rw [readFields, read]
    simp only [bind, Except.bind, colon, space, own.read after steps ends enough, mark, others]
    rfl

theorem readFields_parts {fields : List (Key × Data)} (each : List.Forall₂ FieldReadAs parts fields) (filled : parts ≠ [])
    (blank : Spaces gap) (blank' : Spaces closing) (rest : List Char)
    (enough : 2 * ((',' :: gap).intercalate parts).length < steps) :
    readFields steps ((',' :: gap).intercalate parts ++ (closing ++ '\x7d' :: rest)) = .ok (fields, rest) := by
  induction each generalizing steps with
  | nil => exact absurd rfl filled
  | @cons part field parts fields own others ih =>
    obtain ⟨steps, rfl⟩ : ∃ fewer, steps = fewer + 1 := ⟨steps - 1, by omega⟩
    obtain ⟨name, value, key, rfl, valued⟩ := own.parts
    obtain ⟨label, content⟩ := field
    cases key
    cases others with
    | nil =>
      rw [List.intercalate_singleton] at enough ⊢
      simp only [List.length_append] at enough
      have ends : EndsNumber (closing ++ '\x7d' :: rest) := ends_spaces blank' (by rintro _ ⟨⟩; decide)
      exact (readFields_field valued ends (by omega)).1 rest (skipSpace_spaces blank' (by decide))
    | @cons next field' parts' fields' following more =>
      rw [List.intercalate_cons_cons] at enough ⊢
      simp only [List.length_append, List.length_cons] at enough
      have later : readFields steps _ = _ := ih (by simp) (by omega)
      rw [List.append_assoc, List.append_assoc, List.cons_append]
      have ends (tail : List Char) : EndsNumber (',' :: tail) := by rintro _ ⟨⟩; decide
      refine (readFields_field valued (ends _) (by omega)).2 _ _ _ rfl ?_
      rw [((following.fronted.parts _ parts').append _).skip blank, later]

private theorem readValue_items {items : List Data} (fronted : Fronted text) (blank : Spaces spaces)
    (read : readItems steps text = .ok (items, rest)) :
    readValue (steps + 1) ('[' :: (spaces ++ text)) = .ok (.array items, rest) := by
  rw [readValue, fronted.skip blank]
  obtain ⟨c, more, rfl, -, open', -⟩ := fronted
  split
  next same =>
    cases same
    exact absurd rfl open'
  next => rw [read]; rfl

private theorem readValue_fields {fields : List (Key × Data)} (fronted : Fronted text) (blank : Spaces spaces)
    (read : readFields steps text = .ok (fields, rest)) :
    readValue (steps + 1) ('\x7b' :: (spaces ++ text)) = .ok (.object (Fields.ofList fields), rest) := by
  rw [readValue, fronted.skip blank]
  obtain ⟨c, more, rfl, -, -, open'⟩ := fronted
  split
  next same =>
    cases same
    exact absurd rfl open'
  next => rw [read]; rfl

theorem enclose_parts (blank : Blank margin) (opening mark : Char) (filled : parts ≠ []) : ∃ front gap back,
    Spaces front ∧ Spaces gap ∧ Spaces back ∧
      enclose margin depth opening mark parts = opening :: (front ++ ((',' :: gap).intercalate parts ++ (back ++ [mark]))) := by
  obtain ⟨gap, separated, spaces⟩ := @separator_spaces margin (depth + 1) blank
  refine ⟨_, gap, _, @lineBreak_spaces margin (depth + 1) blank, spaces, @lineBreak_spaces margin depth blank, ?_⟩
  rw [enclose, if_neg (by simpa using filled), separated]
  simp

theorem readAs_array {items : List Data} (blank : Blank margin) (each : List.Forall₂ ReadAs parts items) :
    ReadAs (enclose margin depth '[' ']' parts) (.array items) := by
  cases each with
  | nil =>
    refine ⟨⟨'[', _, rfl, by decide⟩, ?_⟩
    intro rest steps _ enough
    obtain ⟨steps, rfl⟩ : ∃ fewer, steps = fewer + 1 := ⟨steps - 1, by simp [enclose] at enough; omega⟩
    rfl
  | @cons part item parts items own others =>
    obtain ⟨front, gap, back, leads, parted, ends, same⟩ :=
      @enclose_parts margin depth (part :: parts) blank '[' ']' (List.cons_ne_nil part parts)
    rw [same]
    refine ⟨⟨'[', _, rfl, by decide⟩, ?_⟩
    intro rest steps _ enough
    simp only [List.length_cons, List.length_append] at enough
    obtain ⟨steps, rfl⟩ : ∃ fewer, steps = fewer + 1 := ⟨steps - 1, by omega⟩
    have read : readItems steps _ = _ :=
      readItems_parts (List.Forall₂.cons own others) (List.cons_ne_nil part parts) parted ends rest (by omega)
    simpa using readValue_items ((own.fronted.parts _ parts).append _) leads read

theorem readAs_object {fields : List (Key × Data)} (blank : Blank margin) (each : List.Forall₂ FieldReadAs parts fields)
    (settled : Fields.ofList fields = fields) : ReadAs (enclose margin depth '\x7b' '\x7d' parts) (.object fields) := by
  cases each with
  | nil =>
    refine ⟨⟨'\x7b', _, rfl, by decide⟩, ?_⟩
    intro rest steps _ enough
    obtain ⟨steps, rfl⟩ : ∃ fewer, steps = fewer + 1 := ⟨steps - 1, by simp [enclose] at enough; omega⟩
    rfl
  | @cons part field parts fields own others =>
    obtain ⟨front, gap, back, leads, parted, ends, same⟩ :=
      @enclose_parts margin depth (part :: parts) blank '\x7b' '\x7d' (List.cons_ne_nil part parts)
    rw [same]
    refine ⟨⟨'\x7b', _, rfl, by decide⟩, ?_⟩
    intro rest steps _ enough
    simp only [List.length_cons, List.length_append] at enough
    obtain ⟨steps, rfl⟩ : ∃ fewer, steps = fewer + 1 := ⟨steps - 1, by omega⟩
    have read : readFields steps _ = _ :=
      readFields_parts (List.Forall₂.cons own others) (List.cons_ne_nil part parts) parted ends rest (by omega)
    have whole := readValue_fields ((own.fronted.parts _ parts).append _) leads read
    rw [settled] at whole
    simpa using whole

end

theorem readAs_null : ReadAs "null".toList .null := by
  refine ⟨⟨'n', _, rfl, by decide⟩, ?_⟩
  intro rest steps _ enough
  obtain ⟨steps, rfl⟩ : ∃ fewer, steps = fewer + 1 := ⟨steps - 1, by simp at enough; omega⟩
  rfl

theorem readAs_bool (value : Bool) : ReadAs (writeBool value) (.bool value) := by
  cases value with
  | false =>
    refine ⟨⟨'f', _, rfl, by decide⟩, ?_⟩
    intro rest steps _ enough
    obtain ⟨steps, rfl⟩ : ∃ fewer, steps = fewer + 1 := ⟨steps - 1, by simp [writeBool] at enough; omega⟩
    rfl
  | true =>
    refine ⟨⟨'t', _, rfl, by decide⟩, ?_⟩
    intro rest steps _ enough
    obtain ⟨steps, rfl⟩ : ∃ fewer, steps = fewer + 1 := ⟨steps - 1, by simp [writeBool] at enough; omega⟩
    rfl

theorem readAs_int {n : Int} (short : (natDigits n.natAbs).length ≤ digitLimit) : ReadAs (intDigits n) (.int n) := by
  constructor
  · rw [intDigits]
    split
    next => exact ⟨'-', _, rfl, by decide⟩
    next =>
      have ascii := natDigits_ascii n.natAbs
      cases front : natDigits n.natAbs with
      | nil => exact absurd front Nat.toDigits_ne_nil
      | cons c more =>
        rw [front] at ascii
        have digit := ascii c List.mem_cons_self
        refine ⟨c, more, rfl, ?_, ?_, ?_⟩
        · rw [Bool.eq_false_iff]
          intro space
          simp only [isSpace, Bool.or_eq_true, beq_iff_eq] at space
          obtain ((rfl | rfl) | rfl) | rfl := space <;> cases digit
        · rintro rfl
          cases digit
        · rintro rfl
          cases digit
  · intro rest steps ends enough
    have long : 0 < (intDigits n).length := by
      have filled := List.length_pos_iff.mpr (Nat.toDigits_ne_nil : natDigits n.natAbs ≠ [])
      rw [intDigits]
      split
      · exact Nat.succ_pos _
      · exact filled
    obtain ⟨steps, rfl⟩ : ∃ fewer, steps = fewer + 1 := ⟨steps - 1, by omega⟩
    exact readValue_int short ends

theorem readAs_text (text : String) : ReadAs (writeString text.toList) (.text text) := by
  refine ⟨⟨'"', _, rfl, by decide⟩, ?_⟩
  intro rest steps _ enough
  obtain ⟨body, quoted, read⟩ := readString_written text rest
  obtain ⟨steps, rfl⟩ : ∃ fewer, steps = fewer + 1 :=
    ⟨steps - 1, by rw [writeString, List.length_append] at enough; simp at enough; omega⟩
  rw [quoted, readValue, read]
  rfl

end

section
variable {margin : Margin}

mutual

/-- The text that is written for data is read as that data. -/
theorem write_readAs (blank : Blank margin) (depth : Nat) (data : Data) (lossless : Lossless data) :
    ∃ text, write margin depth data = .ok text ∧ ReadAs text data := by
  match data with
  | .null => exact ⟨_, rfl, readAs_null⟩
  | .bool value => exact ⟨_, rfl, readAs_bool value⟩
  | .int n =>
    cases lossless with
    | int short =>
      refine ⟨_, ?_, readAs_int short⟩
      rw [write, writeInt, writeInt?, if_pos short]
      simp only [String.toList_ofList]
  | .real _ => cases lossless
  | .text value => exact ⟨_, rfl, readAs_text value⟩
  | .array items =>
    obtain ⟨parts, written, read⟩ := writeItems_readAs blank (depth + 1) items lossless.items
    refine ⟨enclose margin depth '[' ']' parts, ?_, readAs_array blank read⟩
    rw [write, written]
    rfl
  | .object fields =>
    obtain ⟨settled, each⟩ := lossless.fields
    obtain ⟨parts, written, read⟩ := writeFields_readAs blank (depth + 1) fields each
    refine ⟨enclose margin depth '\x7b' '\x7d' parts, ?_, readAs_object blank read settled⟩
    rw [write, written]
    rfl
termination_by structural data

private theorem writeItems_readAs (blank : Blank margin) (depth : Nat) (items : List Data)
    (each : ∀ item ∈ items, Lossless item) :
    ∃ parts, writeItems margin depth items = .ok parts ∧ List.Forall₂ ReadAs parts items := by
  match items with
  | [] => exact ⟨[], rfl, .nil⟩
  | item :: rest =>
    obtain ⟨own, others⟩ := List.forall_mem_cons.mp each
    obtain ⟨text, written, read⟩ := write_readAs blank depth item own
    obtain ⟨parts, following, reads⟩ := writeItems_readAs blank depth rest others
    refine ⟨text :: parts, ?_, .cons read reads⟩
    rw [writeItems, written, following]
    rfl
termination_by structural items

private theorem writeFields_readAs (blank : Blank margin) (depth : Nat) (fields : List (Key × Data))
    (each : ∀ field ∈ fields, (∃ name, field.1 = .text name) ∧ Lossless field.2) :
    ∃ parts, writeFields margin depth fields = .ok parts ∧ List.Forall₂ FieldReadAs parts fields := by
  match fields with
  | [] => exact ⟨[], rfl, .nil⟩
  | (key, value) :: rest =>
    obtain ⟨⟨⟨name, label⟩, own⟩, others⟩ := List.forall_mem_cons.mp each
    obtain ⟨text, written, read⟩ := write_readAs blank depth value own
    obtain ⟨parts, following, reads⟩ := writeFields_readAs blank depth rest others
    cases label
    refine ⟨_ :: parts, ?_, .cons ⟨name, text, rfl, rfl, read⟩ reads⟩
    rw [writeFields, writeKey, written, following]
    rfl
termination_by structural fields

end

end

/-- What is read from a text is the data that the text is read as, if there is nothing else in it. -/
theorem decode_readAs {text : List Char} {data : Data} (read : ReadAs text data) :
    Json.decode (String.ofList text) = .ok data := by
  have value := read.read [] (2 * text.length + 2) nofun (by omega)
  rw [List.append_nil] at value
  have front : skipSpace text = text := read.fronted.skip (List.forall_mem_nil _)
  rw [Json.decode, String.toList_ofList]
  simp only [front, value, bind, Except.bind]
  rfl

/-- Lines can be indented by a number of spaces if the number fits in 64 bits. A text alone has no lines. -/
def Indentable (indent : Option Int) (data : Data) : Prop :=
  (∃ text, data = .text text) ∨ ∀ count ∈ indent, Indent.fits 64 count = true

theorem marginOf_width {indent : Option Int} (fits : ∀ count ∈ indent, Indent.fits 64 count = true) :
    ∃ margin, marginOf (indent.map Indent.width) = .ok margin ∧ Blank margin := by
  cases indent with
  | none => exact ⟨none, rfl, nofun⟩
  | some count =>
    refine ⟨_, if_pos (fits count rfl), ?_⟩
    rintro _ ⟨⟩ depth c member
    rw [List.eq_of_mem_replicate member]
    rfl

theorem encode_untextual (indent : Option Indent) {data : Data} (parts : ∀ text, data ≠ .text text) :
    Json.encode indent data =
      marginOf indent >>= fun margin => write margin 0 data >>= fun text => .ok (String.ofList text) := by
  cases data with
  | text value => exact absurd rfl (parts value)
  | _ => rfl

theorem encode_overflow {indent : Option Int} {data : Data} (unfit : ¬ Indentable indent data) :
    Json.encode (indent.map Indent.width) data = .error .overflow := by
  rw [Indentable, not_or, not_forall₂] at unfit
  obtain ⟨parts, count, rfl, wide⟩ := unfit
  rw [encode_untextual _ fun text same => parts ⟨text, same⟩, Option.map_some, marginOf, if_neg wide]
  rfl

theorem encode_decode {data : Data} (lossless : Lossless data) {indent : Option Int} (fits : Indentable indent data) :
    ∃ text, Json.encode (indent.map Indent.width) data = .ok text ∧ Json.decode text = .ok data := by
  by_cases textual : ∃ text, data = .text text
  · obtain ⟨text, rfl⟩ := textual
    exact ⟨_, rfl, decode_readAs (readAs_text text)⟩
  · obtain ⟨margin, chosen, blank⟩ := marginOf_width (fits.resolve_left textual)
    obtain ⟨text, written, read⟩ := write_readAs blank 0 data lossless
    refine ⟨String.ofList text, ?_, decode_readAs read⟩
    rw [encode_untextual _ fun text same => textual ⟨text, same⟩, chosen]
    simp only [bind, Except.bind, written]

/-- Data comes back from its JSON text, with its keys in their order, whatever number of spaces the lines are indented
by, if they are on lines at all. A number of spaces that does not fit in 64 bits is refused. -/
theorem json_round_trip {data : Data} (lossless : Lossless data) (indent : Option Int) :
    (Indentable indent data →
      ∃ text, Json.encode (indent.map Indent.width) data = .ok text ∧ Json.decode text = .ok data) ∧
    (¬ Indentable indent data → Json.encode (indent.map Indent.width) data = .error .overflow) :=
  ⟨encode_decode lossless, encode_overflow⟩

/-- An object in an array, with a key beyond the first 65536 characters and a text that is escaped. -/
theorem json_round_trip_nested :
    ∃ text, Json.encode (some (.width 2)) (.array [.object (named [("𝄞", .int (-10))]), .text "\n"]) = .ok text ∧
      Json.decode text = .ok (.array [.object (named [("𝄞", .int (-10))]), .text "\n"]) := by
  have inner : Lossless (.object (named [("𝄞", .int (-10))])) :=
    .object (by decide) (List.forall_mem_singleton.mpr (.int (by decide)))
  have lossless : Lossless (.array [.object (named [("𝄞", .int (-10))]), .text "\n"]) :=
    .array (List.forall_mem_cons.mpr ⟨inner, List.forall_mem_singleton.mpr (.text _)⟩)
  exact (json_round_trip lossless (some 2)).1 (.inr (by rintro _ ⟨⟩; decide))

/-- An empty array with a wider indentation than there can be. -/
theorem json_indent_overflow :
    ¬ ∀ (data : Data) (indent : Option Int), Lossless data →
      ∃ text, Json.encode (indent.map Indent.width) data = .ok text ∧ Json.decode text = .ok data := by
  intro always
  obtain ⟨text, written, -⟩ := always (.array []) (some (2 ^ 63)) (.array (List.forall_mem_nil _))
  have refused : Json.encode (some (.width (2 ^ 63))) (.array []) = .error .overflow := by decide
  rw [Option.map_some, refused] at written
  cases written

end TypeCatalog.Proofs
