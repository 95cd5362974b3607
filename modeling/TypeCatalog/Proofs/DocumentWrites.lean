import TypeCatalog.Proofs.DataParts
import TypeCatalog.Proofs.FileWrites
import TypeCatalog.Proofs.MarkedData

/-! What becomes of a file that a document cannot be written to. A suffix that tells no format is noticed before the file
is touched. A document that has no text is noticed when the file is already empty, and then the old content is lost. -/

namespace TypeCatalog.Proofs
open FileTree

section
variable {margin : Json.Margin} {depth : Nat}

mutual

theorem write_finite (depth : Nat) (data : Data) {text : List Char} (written : Json.write margin depth data = .ok text) :
    AllFinite data := by
  match data with
  | .null =>
    intro value within
    cases within
  | .bool value => exact allFinite_bool value
  | .int n => exact allFinite_int n
  | .text value => exact allFinite_text value
  | .real value =>
    rw [allFinite_real]
    rw [Json.write, Json.writeReal] at written
    split at written
    next finite => exact finite
    next => cases written
  | .array items =>
    rw [Json.write] at written
    obtain ⟨parts, each, -⟩ := of_bind_ok written
    exact allFinite_array.mpr (writeItems_finite (depth + 1) items each)
  | .object fields =>
    rw [Json.write] at written
    obtain ⟨parts, each, -⟩ := of_bind_ok written
    exact allFinite_object.mpr (writeFields_finite (depth + 1) fields each)
termination_by structural data

private theorem writeItems_finite (depth : Nat) (items : List Data) {parts : List (List Char)}
    (written : Json.writeItems margin depth items = .ok parts) : ∀ item ∈ items, AllFinite item := by
  match items with
  | [] => exact List.forall_mem_nil _
  | item :: rest =>
    rw [Json.writeItems] at written
    obtain ⟨first, own, written⟩ := of_bind_ok written
    obtain ⟨others, each, -⟩ := of_bind_ok written
    exact List.forall_mem_cons.mpr ⟨write_finite depth item own, writeItems_finite depth rest each⟩
termination_by structural items

private theorem writeFields_finite (depth : Nat) (fields : List (Key × Data)) {parts : List (List Char)}
    (written : Json.writeFields margin depth fields = .ok parts) : ∀ field ∈ fields, AllFinite field.2 := by
  match fields with
  | [] => exact List.forall_mem_nil _
  | (key, value) :: rest =>
    rw [Json.writeFields] at written
    obtain ⟨name, -, written⟩ := of_bind_ok written
    obtain ⟨first, own, written⟩ := of_bind_ok written
    obtain ⟨others, each, -⟩ := of_bind_ok written
    exact List.forall_mem_cons.mpr ⟨write_finite depth value own, writeFields_finite depth rest each⟩
termination_by structural fields

end

end

section
variable {data : Data} {indent : Option Indent} {text : String}

theorem encode_finite {format : Format} (encoded : format.encode indent data = .ok text) : AllFinite data := by
  cases format with
  | json =>
    cases data with
    | text value => exact allFinite_text value
    | _ =>
      obtain ⟨margin, -, written⟩ := of_bind_ok encoded
      obtain ⟨chars, written, -⟩ := of_bind_ok written
      exact write_finite 0 _ written
  | yaml =>
    obtain ⟨_, finite, -⟩ := of_bind_ok (encoded : Yaml.encodeMarked indent (Marked.plain data : Marked Empty) = _)
    rwa [plain_data, checkFinite_ok] at finite

variable {files : FileTree} {path : TypeCatalog.Path} {choice : FormatChoice}

/-- What keeps a document from being written, whatever the files are: its suffix, its format, or its data. -/
inductive Refused (choice : FormatChoice) (indent : Option Indent) (path : TypeCatalog.Path) (data : Data) : Prop where
  | suffix {failure : Failure} (unknown : choice.resolve path = .error failure)
  | format (unsupported : choice.resolve path = .ok none)
  | infinite (value : Double) (wide : value.isFinite = false) (within : Occurs (.real value) data)
  | text {format : Option Format} {failure : Failure} (chosen : choice.resolve path = .ok format)
      (unmade : Document.encode format indent data = .error failure)

theorem Refused.cause (refused : Refused choice indent path data) : (∃ failure, choice.resolve path = .error failure) ∨
    ∃ format failure, choice.resolve path = .ok format ∧ Document.encode format indent data = .error failure := by
  cases refused with
  | suffix unknown => exact .inl ⟨_, unknown⟩
  | format unsupported => exact .inr ⟨_, _, unsupported, rfl⟩
  | text chosen unmade => exact .inr ⟨_, _, chosen, unmade⟩
  | infinite value wide within =>
    cases chosen : choice.resolve path with
    | error failure => exact .inl ⟨failure, rfl⟩
    | ok format =>
      refine .inr ⟨format, ?_⟩
      cases encoded : Document.encode format indent data with
      | error failure => exact ⟨failure, rfl, rfl⟩
      | ok text =>
        cases format with
        | none => cases encoded
        | some format =>
          rw [encode_finite encoded value within] at wide
          cases wide

/-- A file that can be opened is emptied before its text is made. -/
theorem writeMade_refused (failure : Failure) :
    (∃ reason, files.writeText path "" = .error reason ∧
      Document.writeMade files path (.error failure) = (.error reason, files)) ∨
    ∃ emptied, files.writeText path "" = .ok emptied ∧
      Document.writeMade files path (.error failure) = (.error failure, emptied) ∧
      contentAt emptied path = some .empty ∧
      ∀ other : TypeCatalog.Path, straight other.names ≠ straight path.names →
        contentAt emptied other = contentAt files other := by
  rw [Document.writeMade]
  cases opened : files.writeText path "" with
  | error reason => exact .inl ⟨reason, rfl, rfl⟩
  | ok emptied =>
    obtain ⟨around, name, writable, rfl⟩ := writeText_ok.mp opened
    exact .inr ⟨_, rfl, rfl, writable.contentAt _, fun other apart => (writable.rewritten _).contentAt_other apart⟩

/-- A refused write fails, and all other files keep their contents. The file itself keeps its
own, or stays away, only if the suffix was the cause, or the file could not be opened, or there was nothing in it before;
otherwise it is empty afterwards. -/
theorem refused_write (refused : Refused choice indent path data) (files : FileTree) :
    ∃ failure after, Document.write files path choice indent data = (.error failure, after) ∧
      (∀ other : TypeCatalog.Path, straight other.names ≠ straight path.names →
        contentAt after other = contentAt files other) ∧
      (contentAt after path = contentAt files path ↔
        (∃ failure, choice.resolve path = .error failure) ∨ (∃ failure, files.writeText path "" = .error failure) ∨
          contentAt files path = some .empty) ∧
      (contentAt after path ≠ contentAt files path → contentAt after path = some .empty) := by
  rcases refused.cause with ⟨failure, unknown⟩ | ⟨format, failure, chosen, unmade⟩
  · refine ⟨failure, files, by rw [Document.write, unknown], fun _ _ => rfl, ?_, fun changed => absurd rfl changed⟩
    exact iff_of_true rfl (.inl ⟨failure, unknown⟩)
  · rw [Document.write, chosen]
    dsimp only
    rw [unmade]
    rcases @writeMade_refused files path failure with ⟨reason, closed, made⟩ | ⟨emptied, opened, made, empty, others⟩
    · refine ⟨reason, files, made, fun _ _ => rfl, ?_, fun changed => absurd rfl changed⟩
      exact iff_of_true rfl (.inr (.inl ⟨reason, closed⟩))
    · refine ⟨failure, emptied, made, others, ?_, fun _ => empty⟩
      rw [empty, opened]
      constructor
      · intro same
        exact .inr (.inr same.symm)
      · rintro (⟨_, ⟨⟩⟩ | ⟨_, ⟨⟩⟩ | same)
        exact same.symm

private def sampleFiles : FileTree := .directory [("a.json", .file ⟨#[0x61]⟩)]

private theorem sample_held : contentAt sampleFiles ⟨["a.json"]⟩ = some ⟨#[0x61]⟩ := by
  rfl

private theorem infinite_refused :
    Refused .bySuffix none ⟨["a.json"]⟩ (.array [.int 0, .real (.infinite false)]) :=
  .infinite (.infinite false) rfl (.item (by simp) .here)

/-- Data with an infinity in it, and a file that has something in it. -/
theorem refused_write_infinite :
    ∃ failure after, Document.write sampleFiles ⟨["a.json"]⟩ .bySuffix none (.array [.int 0, .real (.infinite false)]) =
      (.error failure, after) ∧ contentAt after ⟨["a.json"]⟩ = some .empty := by
  obtain ⟨failure, after, refused, -, unchanged, otherwise⟩ := refused_write infinite_refused sampleFiles
  refine ⟨failure, after, refused, otherwise ?_⟩
  rw [ne_eq, unchanged, sample_held]
  rintro (⟨_, ⟨⟩⟩ | ⟨_, ⟨⟩⟩ | ⟨⟨⟩⟩)

/-- The content that the file had is lost. -/
theorem refused_write_loses :
    ¬ ∀ (files : FileTree) (path : TypeCatalog.Path) (choice : FormatChoice) (indent : Option Indent) (data : Data),
      Refused choice indent path data →
        contentAt (Document.write files path choice indent data).2 path = contentAt files path := by
  intro always
  have kept := always sampleFiles ⟨["a.json"]⟩ .bySuffix none _ infinite_refused
  cases kept

end

end TypeCatalog.Proofs
