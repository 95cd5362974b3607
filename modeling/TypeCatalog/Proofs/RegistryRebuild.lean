import TypeCatalog.Library
import TypeCatalog.Proofs.RegistryLookup

/-! A registry that is made again from the records it lists. It lists one record for every name, so a record that is only
found by its alias gets lost, and of several records with one alias another one may come last. An answer stays the same
exactly if the alias is not affected, and all do where records with one alias have one name and the other way round. -/

namespace TypeCatalog.Proofs
open Registry

mutual

private theorem number_references (next : Nat) (data : Data) : (Marked.number next data).1.references = [] := by
  match data with
  | .null | .bool _ | .int _ | .real _ | .text _ => rfl
  | .array items => exact numberList_references (next + 1) items
  | .object fields => exact numberFields_references (next + 1) fields
termination_by structural data

private theorem numberList_references (next : Nat) (items : List Data) :
    Marked.listReferences (Marked.numberList next items).1 = [] := by
  match items with
  | [] => rfl
  | item :: rest =>
    rw [Marked.numberList, Marked.listReferences, number_references next item, numberList_references _ rest]
    rfl
termination_by structural items

private theorem numberFields_references (next : Nat) (fields : List (Key × Data)) :
    Marked.fieldReferences (Marked.numberFields next fields).1 = [] := by
  match fields with
  | [] => rfl
  | (key, value) :: rest =>
    rw [Marked.numberFields, Marked.fieldReferences, number_references next value, numberFields_references _ rest]
    rfl
termination_by structural fields

end

mutual

private theorem number_data (known : List (Nat × Data)) (next : Nat) (data : Data) :
    (Marked.number next data).1.dataWith known = data := by
  match data with
  | .null | .bool _ | .int _ | .real _ | .text _ => rfl
  | .array items => exact congrArg Data.array (numberList_data known (next + 1) items)
  | .object fields => exact congrArg Data.object (numberFields_data known (next + 1) fields)
termination_by structural data

private theorem numberList_data (known : List (Nat × Data)) (next : Nat) (items : List Data) :
    Marked.listDataWith known (Marked.numberList next items).1 = items := by
  match items with
  | [] => rfl
  | item :: rest =>
    rw [Marked.numberList, Marked.listDataWith, number_data known next item, numberList_data known _ rest]
termination_by structural items

private theorem numberFields_data (known : List (Nat × Data)) (next : Nat) (fields : List (Key × Data)) :
    Marked.fieldDataWith known (Marked.numberFields next fields).1 = fields := by
  match fields with
  | [] => rfl
  | (key, value) :: rest =>
    rw [Marked.numberFields, Marked.fieldDataWith, number_data known next value, numberFields_data known _ rest]
termination_by structural fields

end

theorem distinct_toData (data : Data) : (Marked.distinct data).toData = .ok data := by
  have none : (Marked.distinct data).targets = [] := by
    simp only [Marked.targets, Marked.distinct, number_references]
    exact List.filter_eq_nil_iff.mpr fun _ _ => by simp
  have ends : (Marked.distinct data).isEndless = false := by
    simp only [Marked.isEndless, none]
    rfl
  rw [Marked.toData, if_neg (by simp [ends]), none, Marked.unfold, Marked.distinct, number_data]

/-- Loading from no paths over a base makes a registry of the records that the base lists. -/
theorem load_nothing (files : FileTree) (base : Registry) :
    Library.registry files [] (some base) = ofRecords base.records := by
  have read : (base.records.map Marked.distinct).mapM (·.toData) = (.ok base.records : Except Failure _) := by
    induction base.records with
    | nil => rfl
    | cons record records ih =>
      rw [List.map_cons, List.mapM_cons, distinct_toData, ih]
      rfl
  simp only [Library.registry, Library.load, Library.following, List.mapM_nil, pure_bind, List.flatten_nil,
    List.append_nil, Option.map_some, Option.getD_some, read]
  rfl

section
variable {key : Key} {records : List Data} {registry : Registry}

theorem lastWith_listed (built : ofRecords records = .ok registry) :
    lastWith .byName key registry.records = lastWith .byName key records := by
  have wellKeyed : WellKeyed .byName registry.byName := @ofRecords_wellKeyed .byName _ _ built
  rw [← ofRecords_table built]
  exact wellKeyed.lastWith

theorem listed_apart (built : ofRecords records = .ok registry) :
    registry.records.Pairwise fun first second => ¬ Share .byName first second := by
  have wellKeyed : WellKeyed .byName registry.byName := @ofRecords_wellKeyed .byName _ _ built
  rw [Registry.records, List.pairwise_map]
  refine wellKeyed.apart.imp_of_mem ?_
  rintro first second front back apart ⟨held, other, known, named, equal⟩
  obtain ⟨held', known', same⟩ := wellKeyed.keyed first front
  obtain ⟨other', named', alike⟩ := wellKeyed.keyed second back
  rw [known] at known'
  rw [named] at named'
  cases known'
  cases named'
  have level : first.1.same other = true := by rw [← same]; exact equal
  have again : other.same first.1 = true := key_same_symm level
  rw [alike] at again
  rw [key_same_symm again] at apart
  cases apart

/-- Making a registry again never fails, and the new one lists the same records. -/
theorem rebuild_lists (built : ofRecords records = .ok registry) :
    ∃ rebuilt, ofRecords registry.records = .ok rebuilt ∧ rebuilt.records = registry.records := by
  have listable : ∀ record ∈ registry.records, Listable record := by
    intro record listed
    exact ofRecords_ok_iff.mp ⟨registry, built⟩ record (listed_mem built listed)
  obtain ⟨rebuilt, again⟩ := ofRecords_ok_iff.mpr listable
  refine ⟨rebuilt, again, ?_⟩
  exact addAll_fresh again (listed_apart built) (by simp [Registry.empty])

/-- A record with an alias answers for it, so the answers depend on what is last with every alias. -/
theorem kept_iff (built : ofRecords records = .ok registry) {rebuilt : Registry}
    (again : ofRecords registry.records = .ok rebuilt) :
    answer rebuilt key = answer registry key ↔
      lastWith .byAlias key registry.records = lastWith .byAlias key records := by
  rw [answer_eq again, answer_eq built, lastWith_listed built]
  cases listed : lastWith .byAlias key registry.records with
  | some record =>
    cases known : lastWith .byAlias key records with
    | some other => simp
    | none =>
      obtain ⟨member, bearing⟩ := lastWith_some listed
      rw [lastWith_none.mp known record (listed_mem built member)] at bearing
      cases bearing
  | none =>
    cases known : lastWith .byAlias key records with
    | none => simp
    | some record =>
      simp only [Option.none_or, Option.some_or, reduceCtorEq, iff_false]
      intro found
      rw [← lastWith_listed built] at found
      obtain ⟨member, -⟩ := lastWith_some found
      obtain ⟨-, bearing⟩ := lastWith_some known
      rw [lastWith_none.mp listed record member] at bearing
      cases bearing

/-- Records with one alias have one name, and the other way round. -/
def InStep (records : List Data) : Prop :=
  ∀ first ∈ records, ∀ second ∈ records, Share .byAlias first second ↔ Share .byName first second

theorem inStep_last (built : ofRecords records = .ok registry) (inStep : InStep records) :
    lastWith .byAlias key registry.records = lastWith .byAlias key records := by
  cases known : lastWith .byAlias key records with
  | none =>
    rw [lastWith_none]
    intro record listed
    exact lastWith_none.mp known record (listed_mem built listed)
  | some record =>
    obtain ⟨member, bearing⟩ := lastWith_some known
    obtain ⟨held, aliased, found⟩ := bears_listed bearing
    have itself : held.same held = true := key_same_trans found (key_same_symm found)
    obtain ⟨name, name', named, named', -⟩ := (inStep record member record member).mp ⟨held, held, aliased, aliased, itself⟩
    rw [named] at named'
    cases named'
    have same : ∀ other ∈ records, bears .byAlias key other = bears .byName name other := by
      intro other inside
      rw [Bool.eq_iff_iff]
      constructor
      · intro second
        obtain ⟨held', aliased', found'⟩ := bears_listed second
        have shared : Share .byAlias other record :=
          ⟨held', held, aliased', aliased, key_same_trans found' (key_same_symm found)⟩
        obtain ⟨first, second, named', named'', equal⟩ := (inStep other inside record member).mp shared
        rw [named] at named''
        cases named''
        rwa [bears_of_key named']
      · intro second
        obtain ⟨name', named', found'⟩ := bears_listed second
        obtain ⟨first, second, aliased', aliased'', equal⟩ :=
          (inStep other inside record member).mpr ⟨name', name, named', named, found'⟩
        rw [aliased] at aliased''
        cases aliased''
        rw [bears_of_key aliased']
        exact key_same_trans equal found
    have throughout {list : List Data} (inside : ∀ other ∈ list, other ∈ records) :
        lastWith .byAlias key list = lastWith .byName name list :=
      List.find?_congr fun other listed => same other (inside other (List.mem_reverse.mp listed))
    rw [throughout fun _ => listed_mem built, lastWith_listed built, ← throughout fun _ => id, known]

end

/-- A registry over a base and no paths lists what the base lists. It gives the same answer for a key exactly if the last
record with this alias is also the last one that the base lists with it, which holds for records whose aliases and names
go together. -/
theorem rebuilt_answers {records : List Data} {registry : Registry} (built : ofRecords records = .ok registry)
    (files : FileTree) :
    ∃ rebuilt, Library.registry files [] (some registry) = .ok rebuilt ∧ rebuilt.records = registry.records ∧
      (∀ key, answer rebuilt key = answer registry key ↔
        lastWith .byAlias key registry.records = lastWith .byAlias key records) ∧
      (InStep records → ∀ key, answer rebuilt key = answer registry key) := by
  obtain ⟨rebuilt, again, listed⟩ := rebuild_lists built
  refine ⟨rebuilt, (load_nothing files registry).trans again, listed, fun key => kept_iff built again, ?_⟩
  intro inStep key
  exact (kept_iff built again).mpr (inStep_last built inStep)

private def entry (first second : String) (primitive : Int) : Data :=
  .record [("alias", .text first), ("name", .text second), ("primitive", .int primitive)]

private theorem share_entry (index : Index) (first second first' second' : String) (primitive primitive' : Int) :
    Share index (entry first second primitive) (entry first' second' primitive') ↔
      (match index with
        | .byAlias => first = first'
        | .byName => second = second') := by
  have known : keyOf (entry first second primitive) index.field = .ok (.text (match index with
      | .byAlias => first
      | .byName => second)) := by cases index <;> rfl
  have known' : keyOf (entry first' second' primitive') index.field = .ok (.text (match index with
      | .byAlias => first'
      | .byName => second')) := by cases index <;> rfl
  simp only [Share, known, known', Except.ok.injEq, ↓existsAndEq, true_and, text_same, beq_iff_eq]
  cases index <;> rfl

theorem rebuilt_answers_replaced :
    ∃ registry rebuilt, ofRecords [entry "A" "a" 0, entry "BACnetB" "b" 1, entry "A" "a" 2] = .ok registry ∧
      Library.registry .empty [] (some registry) = .ok rebuilt ∧ rebuilt.records = [entry "A" "a" 2, entry "BACnetB" "b" 1] ∧
      ∀ key, answer rebuilt key = answer registry key := by
  obtain ⟨registry, built, listed⟩ :
      ∃ registry, ofRecords [entry "A" "a" 0, entry "BACnetB" "b" 1, entry "A" "a" 2] = .ok registry ∧
        registry.records = [entry "A" "a" 2, entry "BACnetB" "b" 1] := ⟨_, rfl, rfl⟩
  have inStep : InStep [entry "A" "a" 0, entry "BACnetB" "b" 1, entry "A" "a" 2] := by
    intro first inside second inside'
    simp only [List.mem_cons, List.not_mem_nil, or_false] at inside inside'
    rcases inside with rfl | rfl | rfl <;> rcases inside' with rfl | rfl | rfl <;> simp only [share_entry] <;> decide
  obtain ⟨rebuilt, again, same, -, kept⟩ := rebuilt_answers built .empty
  exact ⟨registry, rebuilt, built, again, same.trans listed, kept inStep⟩

/-- A record whose name another one took over is no longer found by its alias, and of two records with one alias the one
with the newer name comes last, whichever was added last. -/
theorem rebuilt_forgets :
    (∃ registry rebuilt, ofRecords [entry "A" "n" 0, entry "B" "n" 1] = .ok registry ∧
      Library.registry .empty [] (some registry) = .ok rebuilt ∧
      answer registry (.text "A") = some (entry "A" "n" 0) ∧ answer rebuilt (.text "A") = none) ∧
    ∃ registry rebuilt, ofRecords [entry "A" "n" 0, entry "A" "m" 1, entry "A" "n" 2] = .ok registry ∧
      Library.registry .empty [] (some registry) = .ok rebuilt ∧
      answer registry (.text "A") = some (entry "A" "n" 2) ∧ answer rebuilt (.text "A") = some (entry "A" "m" 1) :=
  ⟨⟨_, _, rfl, rfl, rfl, rfl⟩, _, _, rfl, rfl, rfl, rfl⟩

end TypeCatalog.Proofs
