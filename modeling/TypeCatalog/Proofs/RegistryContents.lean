import Mathlib.Data.Finset.Card
import TypeCatalog.Proofs.RegistryPrecedence

/-! What a registry holds, told from the records it was made of. Under every key it has the last record with that alias,
or else the last one with that name. It lists one record for each name: the names in the order in which they first came,
each with the last record that has it. -/

namespace TypeCatalog.Proofs
open Registry TypeCatalog.Normal

/-- The text by which a record is listed in an index. -/
def title (index : Index) (record : Data) : Option String :=
  match record.find? index.field with
  | some (.text text) => some text
  | _ => none

/-- A record with text for its alias and for its name. -/
def Titled (record : Data) : Prop := ∀ index : Index, ∃ text, title index record = some text

/-- The titles of records in their order, with repetitions. -/
def titles (index : Index) (records : List Data) : List String := records.filterMap (title index)

section
variable {index : Index} {key : Key} {text : String} {record : Data} {records : List Data} {registry made : Registry}
  {entry : Entry} {table : Table}

theorem keyOf_title (titled : title index record = some text) : keyOf record index.field = .ok (.text text) := by
  cases record with
  | object fields =>
    rw [title, Data.find?] at titled
    rw [keyOf]
    split at titled
    next found =>
      cases titled
      rw [found]
      rfl
    next => cases titled
  | null | bool | int | real | text | array => cases titled

theorem Titled.listable (titled : Titled record) : Listable record := by
  intro index
  obtain ⟨text, known⟩ := titled index
  exact ⟨.text text, keyOf_title known⟩

/-- A key that is text stays where it is, or comes last if it is new. -/
theorem put_texts {texts : List String} (held : table.map (·.1) = texts.map Key.text) :
    (Table.put (.text text) entry table).map (·.1) = (if text ∈ texts then texts else texts ++ [text]).map Key.text := by
  induction table generalizing texts with
  | nil =>
    cases texts with
    | nil => rfl
    | cons first rest => cases held
  | cons row rest ih =>
    cases texts with
    | nil => cases held
    | cons first others =>
      obtain ⟨here, old⟩ := row
      obtain ⟨rfl, tail⟩ := List.cons.inj held
      rw [Table.put]
      by_cases same : first = text
      · simp [same, tail]
      · have apart : (Key.text first).same (.text text) = false := beq_eq_false_iff_ne.mpr same
        simp only [apart, Bool.false_eq_true, if_false, List.map_cons, ih tail, List.mem_cons, Ne.symm same, false_or]
        split <;> simp

private theorem eraseDups_concat (texts : List String) (text : String) :
    (texts ++ [text]).eraseDups = if text ∈ texts.eraseDups then texts.eraseDups else texts.eraseDups ++ [text] := by
  rw [List.eraseDups_append, List.removeAll]
  by_cases seen : text ∈ texts <;> simp [seen, List.eraseDups_cons]

/-- The keys of a table are the titles of the records in the order in which they first came. -/
theorem addAll_texts {start : Nat} {seen : List String} (titled : ∀ record ∈ records, Titled record)
    (held : (index.table registry).map (·.1) = seen.eraseDups.map Key.text)
    (added : registry.addAll start records = .ok made) :
    (index.table made).map (·.1) = (seen ++ titles index records).eraseDups.map Key.text := by
  induction records generalizing registry start seen with
  | nil =>
    cases added
    rw [held, titles, List.filterMap_nil, List.append_nil]
  | cons record records ih =>
    obtain ⟨first, others⟩ := List.forall_mem_cons.mp titled
    obtain ⟨middle, begun, rest⟩ := addAll_cons added
    obtain ⟨text, known⟩ := first index
    obtain ⟨other, found, placed⟩ := @add_ok index _ _ _ begun
    rw [keyOf_title known] at found
    cases found
    have step : (index.table middle).map (·.1) = (seen ++ [text]).eraseDups.map Key.text := by
      rw [placed, put_texts held, eraseDups_concat]
    rw [ih others step rest, titles, titles, List.filterMap_cons_some known, List.append_assoc, List.singleton_append]

theorem listed_texts (titled : ∀ record ∈ records, Titled record) (built : ofRecords records = .ok registry) :
    registry.byName.map (·.1) = (titles .byName records).eraseDups.map Key.text :=
  @addAll_texts .byName _ _ _ 0 [] titled rfl built

theorem WellKeyed.get_row (wellKeyed : WellKeyed index table) (listed : (.text text, entry) ∈ table) :
    table.get? (.text text) = some entry := by
  have apart := wellKeyed.apart
  clear wellKeyed
  induction table with
  | nil => cases listed
  | cons row rest ih =>
    obtain ⟨first, others⟩ := List.pairwise_cons.mp apart
    rw [Table.get?, List.find?_cons]
    rcases List.mem_cons.mp listed with rfl | later
    · simp
    · rw [first _ later]
      exact ih later others

/-- Every name that there is stands once in the list, in the order of the first records, with the last record. -/
theorem listed_last (titled : ∀ record ∈ records, Titled record) (built : ofRecords records = .ok registry) :
    registry.records.map some =
      (titles .byName records).eraseDups.map fun name => lastWith .byName (.text name) records := by
  have texts := listed_texts titled built
  have own : ∀ row ∈ registry.byName, some row.2.record = lastWith .byName row.1 records := by
    intro row listed
    obtain ⟨name, -, same⟩ := List.mem_map.mp (texts ▸ List.mem_map_of_mem listed)
    obtain ⟨key, entry⟩ := row
    cases same
    have found := (@ofRecords_wellKeyed .byName _ _ built).get_row listed
    rw [← ofRecords_table built, found]
    rfl
  calc registry.records.map some = registry.byName.map fun row => lastWith .byName row.1 records := by
        rw [Registry.records, List.map_map]
        exact List.map_congr_left own
    _ = (registry.byName.map (·.1)).map fun key => lastWith .byName key records := by rw [List.map_map]; rfl
    _ = _ := by rw [texts, List.map_map]; rfl

theorem listed_size (titled : ∀ record ∈ records, Titled record) (built : ofRecords records = .ok registry) :
    registry.size = (titles .byName records).toFinset.card := by
  have texts := listed_texts titled built
  have different : (titles .byName records).eraseDups.Nodup := by
    have apart := (@ofRecords_wellKeyed .byName _ _ built).apart
    have keys : (registry.byName.map (·.1)).Pairwise fun first second => first.same second = false :=
      List.pairwise_map.mpr apart
    rw [texts, List.pairwise_map] at keys
    exact keys.imp fun unlike same => by simp [same] at unlike
  have same : (titles .byName records).toFinset = (titles .byName records).eraseDups.toFinset := by
    ext name
    simp
  rw [same, List.toFinset_card_of_nodup different, Registry.size, ← List.length_map (f := (·.1)), texts, List.length_map]

theorem lastWith_isSome : (lastWith index key records).isSome = true ↔ ∃ record ∈ records, bears index key record = true := by
  simp [lastWith]

theorem contains_iff (built : ofRecords records = .ok registry) :
    registry.contains key = true ↔ ∃ record ∈ records, ∃ index, bears index key record = true := by
  have known : registry.contains key = (answer registry key).isSome := by rw [contains, answer, Option.isSome_map]
  rw [known, answer_eq built, Option.isSome_or, Bool.or_eq_true, lastWith_isSome, lastWith_isSome]
  constructor
  · rintro (⟨record, listed, bearing⟩ | ⟨record, listed, bearing⟩)
    · exact ⟨record, listed, .byAlias, bearing⟩
    · exact ⟨record, listed, .byName, bearing⟩
  · rintro ⟨record, listed, index, bearing⟩
    cases index
    · exact .inl ⟨record, listed, bearing⟩
    · exact .inr ⟨record, listed, bearing⟩

end

/-- A registry can be made of any titled records. For every key it gives the last record with this alias, or else the last
with this name, and it has a key exactly if a record bears it. It lists the last record of every name in the order in which
the names first came. A definition gets the first record that there is by its own name and then by the catalogue's name for
it, as alias before as name; without such a record the registry does not matter. -/
theorem registry_refines {records : List Data} (titled : ∀ record ∈ records, Titled record) :
    ∃ registry, ofRecords records = .ok registry ∧
      (∀ key, answer registry key = (lastWith .byAlias key records).or (lastWith .byName key records)) ∧
      (∀ key, registry.contains key = true ↔ ∃ record ∈ records, ∃ index, bears index key record = true) ∧
      registry.size = (titles .byName records).toFinset.card ∧
      registry.records.map some =
        ((titles .byName records).eraseDups.map fun name => lastWith .byName (.text name) records) ∧
      ∀ (tables : WellKnown) (draft : Draft) (name : String), draft.name = .text name →
        (∀ record, precedence records name = some record →
          ∃ entry, normalize (some registry) tables draft = .ok (.found entry) ∧ entry.record = record) ∧
        (precedence records name = none → normalize (some registry) tables draft = normalize none tables draft) := by
  obtain ⟨registry, built⟩ := ofRecords_ok_iff.mpr fun record listed => (titled record listed).listable
  refine ⟨registry, built, fun _ => answer_eq built, fun _ => contains_iff built, listed_size titled built,
    listed_last titled built, ?_⟩
  intro tables draft name named
  exact ⟨fun record found => draft_found built named found tables, fun absent => draft_absent built named absent tables⟩

private def listing (first second : String) (primitive : Int) : Data :=
  .record [("alias", .text first), ("name", .text second), ("primitive", .int primitive)]

private theorem listing_titled (first second : String) (primitive : Int) : Titled (listing first second primitive) := by
  intro index
  cases index with
  | byAlias => exact ⟨first, rfl⟩
  | byName => exact ⟨second, rfl⟩

/-- Two records share a name, two an alias, and the alias of one is the name of others. -/
theorem registry_refines_overlapping :
    ∃ registry, ofRecords [listing "A" "n" 0, listing "B" "n" 1, listing "n" "m" 2, listing "A" "k" 3] = .ok registry ∧
      answer registry (.text "A") = some (listing "A" "k" 3) ∧ answer registry (.text "n") = some (listing "n" "m" 2) ∧
      registry.contains (.text "k") = true ∧ registry.size = 3 ∧
      registry.records = [listing "B" "n" 1, listing "n" "m" 2, listing "A" "k" 3] ∧
      (∃ entry, normalize (some registry) .standard { name := .text "BACnetM", type := .text "Real" } = .ok (.found entry) ∧
        entry.record = listing "n" "m" 2) ∧
      normalize (some registry) .standard { name := .text "C", type := .text "Real" } =
        normalize none .standard { name := .text "C", type := .text "Real" } := by
  have titled : ∀ record ∈ [listing "A" "n" 0, listing "B" "n" 1, listing "n" "m" 2, listing "A" "k" 3],
      Titled record := by
    intro record listed
    simp only [List.mem_cons, List.not_mem_nil, or_false] at listed
    rcases listed with rfl | rfl | rfl | rfl <;> exact listing_titled _ _ _
  obtain ⟨registry, built, answers, contained, size, listed, results⟩ := registry_refines titled
  have held := (contained (.text "k")).mpr ⟨listing "A" "k" 3, by simp, .byName, rfl⟩
  have inOrder : registry.records.map some =
      [listing "B" "n" 1, listing "n" "m" 2, listing "A" "k" 3].map some := listed.trans (by rfl)
  refine ⟨registry, built, answers _, answers _, held, size, ?_, (results _ _ "BACnetM" rfl).1 _ rfl,
    (results _ _ "C" rfl).2 rfl⟩
  exact List.map_injective_iff.mpr (Option.some_injective _) inOrder

end TypeCatalog.Proofs
