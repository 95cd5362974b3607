import Mathlib.Data.List.Nodup
import TypeCatalog.Proofs.Attempts
import TypeCatalog.Proofs.Lookups
import TypeCatalog.Schema.Repository

/-! What a repository of schemas holds. A schema that comes on its own must have an identifier that did not come before;
those of another repository take the place of what has their identifiers. So an identifier stands for the schema that came
last with it, and schemas are lost exactly where a repository brings another schema for an identifier that came before. -/

namespace TypeCatalog.Proofs
open Repository

/-- A schema that a repository is given, on its own or by another repository. -/
structure Gift where
  alone : Bool
  id : String
  schema : Marked Nat

def giftOf (schema : Marked Nat) : Except Failure Gift := return ⟨true, ← idOf schema.data, schema⟩

/-- What an argument gives, in order. -/
def giftsOf (files : FileTree) : Argument → Except Failure (List Gift)
  | .schema data => return [← giftOf (.plain data)]
  | .repository other => .ok (other.schemas.map fun (id, schema) => ⟨false, id, schema⟩)
  | .path path => do (← filesAt files path).mapM fun file => do giftOf (← Document.readMarked files file .bySuffix)

/-- What all arguments give, in order. -/
def giftsOfAll (files : FileTree) (arguments : List Argument) : Except Failure (List Gift) :=
  return (← arguments.mapM (giftsOf files)).flatten

/-- What comes on its own has an identifier that did not come before. -/
def Admissible (gifts : List Gift) : Prop := gifts.Pairwise fun earlier later => later.alone = true → earlier.id ≠ later.id

/-- The schema that came last with an identifier. -/
def lastGiven (id : String) (gifts : List Gift) : Option (Marked Nat) := (gifts.reverse.find? (·.id == id)).map (·.schema)

def accept (repository : Repository) (gift : Gift) : Except Failure Repository :=
  if gift.alone && repository.ids.contains gift.id then .error (.duplicateSchema gift.id)
  else .ok ⟨put gift.id gift.schema repository.schemas⟩

section
variable {files : FileTree} {repository : Repository} {gifts : List Gift} {gift : Gift} {id : String} {schema : Marked Nat}
  {schemas : List (String × Marked Nat)} {failure : Failure}

theorem put_new (new : id ∉ schemas.map (·.1)) : put id schema schemas = schemas ++ [(id, schema)] := by
  induction schemas with
  | nil => rfl
  | cons entry rest ih =>
    rw [List.map_cons, List.mem_cons, not_or] at new
    have apart : ¬ (entry.1 == id) = true := by simpa using Ne.symm new.1
    rw [put, if_neg apart, ih new.2, List.cons_append]

theorem put_known (known : id ∈ schemas.map (·.1)) : (put id schema schemas).map (·.1) = schemas.map (·.1) := by
  induction schemas with
  | nil => cases known
  | cons entry rest ih =>
    rw [put]
    split
    next => rfl
    next apart =>
      rw [List.map_cons, List.mem_cons] at known
      rcases known with same | later
      · exact absurd (beq_iff_eq.mpr same.symm) apart
      · rw [List.map_cons, List.map_cons, ih later]

theorem mem_ids_put {other : String} :
    other ∈ (put id schema schemas).map (·.1) ↔ other = id ∨ other ∈ schemas.map (·.1) := by
  by_cases known : id ∈ schemas.map (·.1)
  · rw [put_known known]
    refine ⟨.inr, ?_⟩
    rintro (rfl | held)
    · exact known
    · exact held
  · rw [put_new known, List.map_append, List.mem_append, List.map_cons, List.map_nil, List.mem_singleton]
    exact or_comm

theorem put_nodup (apart : (schemas.map (·.1)).Nodup) : ((put id schema schemas).map (·.1)).Nodup := by
  by_cases known : id ∈ schemas.map (·.1)
  · rwa [put_known known]
  · rw [put_new known, List.map_append, List.nodup_append]
    refine ⟨apart, List.nodup_singleton _, ?_⟩
    rintro held member _ (_ | _)
    · rintro rfl
      exact known member
    · contradiction

theorem lookup_put (other : String) :
    (put id schema schemas).lookup other = if other == id then some schema else schemas.lookup other :=
  lookup_placed (put id schema) rfl (fun _ _ _ => rfl) schemas other

theorem lastGiven_cons (id : String) (gift : Gift) (gifts : List Gift) :
    lastGiven id (gift :: gifts) = (lastGiven id gifts).or (if gift.id == id then some gift.schema else none) := by
  rw [lastGiven, lastGiven, List.reverse_cons, List.find?_append]
  cases gifts.reverse.find? (·.id == id) with
  | some last => rfl
  | none =>
    cases same : gift.id == id <;> simp [same]

/-- What is accepted one after the other: each schema comes last for its identifier, or what came later does. -/
theorem accepted_held {result : Repository} (accepted : gifts.foldlM accept repository = .ok result)
    (apart : repository.ids.Nodup) : result.ids.Nodup ∧
      ∀ id, result.schemas.lookup id = (lastGiven id gifts).or (repository.schemas.lookup id) := by
  induction gifts generalizing repository with
  | nil =>
    cases accepted
    exact ⟨apart, fun _ => rfl⟩
  | cons gift rest ih =>
    rw [List.foldlM_cons, accept] at accepted
    split at accepted
    next => cases accepted
    next =>
      obtain ⟨distinct, held⟩ := ih accepted (put_nodup apart)
      refine ⟨distinct, fun id => ?_⟩
      rw [held, lookup_put, lastGiven_cons, Option.or_assoc, BEq.comm (a := id)]
      cases gift.id == id <;> rfl

def NewTo (repository : Repository) (gifts : List Gift) : Prop :=
  (∀ gift ∈ gifts, gift.alone = true → gift.id ∉ repository.ids) ∧ Admissible gifts

private theorem newTo_put (welcome : ¬ (gift.alone && repository.ids.contains gift.id) = true) :
    NewTo repository (gift :: gifts) ↔ NewTo ⟨put gift.id gift.schema repository.schemas⟩ gifts := by
  have known (other : String) : other ∈ ids ⟨put gift.id gift.schema repository.schemas⟩ ↔
      other = gift.id ∨ other ∈ repository.ids := mem_ids_put
  rw [Bool.and_eq_true, List.contains_iff_mem, not_and] at welcome
  simp only [NewTo, known, Admissible, List.pairwise_cons, List.forall_mem_cons, not_or]
  constructor
  · rintro ⟨⟨-, fresh⟩, apart, others⟩
    exact ⟨fun later listed alone => ⟨fun same => apart later listed alone same.symm, fresh later listed alone⟩, others⟩
  · rintro ⟨fresh, others⟩
    exact ⟨⟨welcome, fun later listed alone => (fresh later listed alone).2⟩,
      fun later listed alone same => (fresh later listed alone).1 same.symm, others⟩

/-- Schemas are accepted if what comes on its own is new, and otherwise the first that is not is named. -/
theorem accepted_or_named : NewTo repository gifts ∧ (∃ result, gifts.foldlM accept repository = .ok result) ∨
    ∃ before gift after, gifts = before ++ gift :: after ∧ gift.alone = true ∧
      (gift.id ∈ repository.ids ∨ ∃ earlier ∈ before, earlier.id = gift.id) ∧ NewTo repository before ∧
      gifts.foldlM accept repository = .error (.duplicateSchema gift.id) := by
  induction gifts generalizing repository with
  | nil => exact .inl ⟨⟨List.forall_mem_nil _, .nil⟩, repository, rfl⟩
  | cons gift rest ih =>
    rw [List.foldlM_cons, accept]
    by_cases refused : (gift.alone && repository.ids.contains gift.id) = true
    · rw [if_pos refused]
      rw [Bool.and_eq_true, List.contains_iff_mem] at refused
      exact .inr ⟨[], gift, rest, rfl, refused.1, .inl refused.2, ⟨List.forall_mem_nil _, .nil⟩, rfl⟩
    · rw [if_neg refused, newTo_put refused]
      rcases @ih ⟨put gift.id gift.schema repository.schemas⟩ with
        whole | ⟨before, late, after, rfl, alone, known, fresh, named⟩
      · exact .inl whole
      · refine .inr ⟨gift :: before, late, after, rfl, alone, ?_, (newTo_put refused).mpr fresh, named⟩
        rcases known with held | ⟨earlier, listed, same⟩
        · rcases mem_ids_put.mp held with same | held
          · exact .inr ⟨gift, List.mem_cons_self, same.symm⟩
          · exact .inl held
        · exact .inr ⟨earlier, List.mem_cons_of_mem _ listed, same⟩

theorem add_gift (repository : Repository) (schema : Marked Nat) :
    repository.add schema = giftOf schema >>= accept repository := by
  rw [Repository.add, giftOf]
  cases idOf schema.data with
  | error failure => rfl
  | ok id =>
    change (if repository.ids.contains id then _ else _) = if repository.ids.contains id then _ else _
    split
    next => rfl
    next unknown =>
      have new : id ∉ repository.schemas.map (·.1) := by
        intro known
        exact unknown (List.contains_iff_mem.mpr known)
      rw [put_new new]
      rfl

section
variable {argument : Argument} {arguments : List Argument} {result : Repository}

private theorem accept_all (repository : Repository) (schemas : List (String × Marked Nat)) :
    (schemas.map fun (id, schema) => (⟨false, id, schema⟩ : Gift)).foldlM accept repository =
      .ok ⟨schemas.foldl (fun held (id, schema) => put id schema held) repository.schemas⟩ := by
  induction schemas generalizing repository with
  | nil => rfl
  | cons entry rest ih => exact ih ⟨put entry.1 entry.2 repository.schemas⟩

private theorem addArgument_path (repository : Repository) (path : TypeCatalog.Path) :
    addArgument files repository (.path path) = filesAt files path >>= fun found => found.foldlM
      (fun repository file => (Document.readMarked files file .bySuffix >>= giftOf) >>= accept repository) repository := by
  rw [addArgument]
  simp only [add_gift, bind_assoc]

theorem addArgument_gifts (given : giftsOf files argument = .ok gifts) (repository : Repository) :
    addArgument files repository argument = gifts.foldlM accept repository := by
  cases argument with
  | schema data =>
    obtain ⟨gift, own, same⟩ := of_bind_ok given
    cases same
    rw [addArgument, add_gift, own]
    exact (bind_pure _).symm
  | repository other =>
    cases given
    exact (accept_all repository other.schemas).symm
  | path path =>
    obtain ⟨found, searched, read⟩ := of_bind_ok given
    rw [addArgument_path, searched]
    exact foldlM_found read repository

theorem addArgument_gives (taken : addArgument files repository argument = .ok result) :
    ∃ gifts, giftsOf files argument = .ok gifts := by
  cases argument with
  | schema data =>
    rw [addArgument, add_gift] at taken
    obtain ⟨gift, own, -⟩ := of_bind_ok taken
    refine ⟨[gift], ?_⟩
    rw [giftsOf, own]
    rfl
  | repository other => exact ⟨_, rfl⟩
  | path path =>
    rw [addArgument_path] at taken
    obtain ⟨found, searched, read⟩ := of_bind_ok taken
    obtain ⟨gifts, known⟩ := foldlM_makes read
    refine ⟨gifts, ?_⟩
    rw [giftsOf, searched]
    exact known

theorem create_gifts (given : giftsOfAll files arguments = .ok gifts) (repository : Repository) :
    arguments.foldlM (addArgument files) repository = gifts.foldlM accept repository := by
  obtain ⟨lists, known, same⟩ := of_bind_ok given
  cases same
  clear given
  induction arguments generalizing lists repository with
  | nil =>
    cases known
    rfl
  | cons argument rest ih =>
    rw [List.mapM_cons] at known
    obtain ⟨first, own, others⟩ := of_bind_ok known
    obtain ⟨later, following, same⟩ := of_bind_ok others
    cases same
    rw [List.foldlM_cons, addArgument_gifts own, List.flatten_cons, List.foldlM_append]
    exact congrArg (first.foldlM accept repository >>= ·) (funext fun state => ih state later following)

theorem create_gives (created : arguments.foldlM (addArgument files) repository = .ok result) :
    ∃ gifts, giftsOfAll files arguments = .ok gifts := by
  suffices known : ∃ lists, arguments.mapM (giftsOf files) = .ok lists by
    obtain ⟨lists, known⟩ := known
    refine ⟨lists.flatten, ?_⟩
    rw [giftsOfAll, known]
    rfl
  apply mapM_ok
  induction arguments generalizing repository with
  | nil => exact List.forall_mem_nil _
  | cons argument rest ih =>
    rw [List.foldlM_cons] at created
    obtain ⟨next, own, others⟩ := of_bind_ok created
    exact List.forall_mem_cons.mpr ⟨addArgument_gives own, ih others⟩

end

/-- Every schema stands under the identifier that it states. -/
def Labelled (repository : Repository) : Prop := ∀ entry ∈ repository.schemas, idOf entry.2.data = .ok entry.1

theorem put_labelled (labelled : Labelled ⟨schemas⟩) (own : idOf schema.data = .ok id) :
    Labelled ⟨put id schema schemas⟩ := by
  induction schemas with
  | nil => exact List.forall_mem_singleton.mpr own
  | cons entry rest ih =>
    obtain ⟨first, others⟩ := List.forall_mem_cons.mp labelled
    rw [put]
    split
    next same =>
      rw [beq_iff_eq] at same
      exact List.forall_mem_cons.mpr ⟨same ▸ own, others⟩
    next => exact List.forall_mem_cons.mpr ⟨first, ih others⟩

theorem accepted_labelled {result : Repository} (accepted : gifts.foldlM accept repository = .ok result)
    (each : ∀ gift ∈ gifts, idOf gift.schema.data = .ok gift.id) (labelled : Labelled repository) : Labelled result := by
  induction gifts generalizing repository with
  | nil =>
    cases accepted
    exact labelled
  | cons gift rest ih =>
    obtain ⟨own, others⟩ := List.forall_mem_cons.mp each
    rw [List.foldlM_cons, accept] at accepted
    split at accepted
    next => cases accepted
    next => exact ih accepted others (put_labelled labelled own)

theorem giftOf_states (own : giftOf schema = .ok gift) : idOf gift.schema.data = .ok gift.id := by
  obtain ⟨id, stated, same⟩ := of_bind_ok own
  cases same
  exact stated

/-- What is given has the identifier that it states, on its own and in repositories where every schema has. -/
theorem gifts_state {arguments : List Argument} (given : giftsOfAll files arguments = .ok gifts)
    (others : ∀ other, .repository other ∈ arguments → Labelled other) :
    ∀ gift ∈ gifts, idOf gift.schema.data = .ok gift.id := by
  obtain ⟨lists, known, same⟩ := of_bind_ok given
  cases same
  intro gift member
  obtain ⟨list, listed, inside⟩ := List.mem_flatten.mp member
  obtain ⟨argument, among, own⟩ := mapM_mem known list listed
  cases argument with
  | schema data =>
    obtain ⟨single, stated, same⟩ := of_bind_ok own
    cases same
    cases List.mem_singleton.mp inside
    exact giftOf_states stated
  | repository other =>
    cases own
    obtain ⟨entry, held, rfl⟩ := List.mem_map.mp inside
    exact others other among entry held
  | path path =>
    obtain ⟨found, -, read⟩ := of_bind_ok own
    obtain ⟨file, -, made⟩ := mapM_mem read gift inside
    obtain ⟨schema, -, stated⟩ := of_bind_ok made
    exact giftOf_states stated

/-- A repository that was created, from schemas and from repositories that were. -/
inductive Created : Repository → Prop where
  | from {files : FileTree} {arguments : List Argument} {result : Repository}
      (others : ∀ other, .repository other ∈ arguments → Created other) (created : create files arguments = .ok result) :
      Created result

theorem Created.labelled (created : Created repository) : Labelled repository := by
  induction created with
  | «from» _ created ih =>
    obtain ⟨gifts, given⟩ := create_gives created
    rw [create, create_gifts given] at created
    exact accepted_labelled created (gifts_state given ih) (List.forall_mem_nil _)

theorem lastGiven_agrees : (∀ gift ∈ gifts, lastGiven gift.id gifts = some gift.schema) ↔
    ∀ first ∈ gifts, ∀ second ∈ gifts, first.id = second.id → first.schema = second.schema := by
  constructor
  · intro held first inside second inside' same
    have last := held first inside
    rw [same, held second inside'] at last
    exact (Option.some.inj last).symm
  · intro agree gift inside
    cases found : gifts.reverse.find? (·.id == gift.id) with
    | none => exact absurd (beq_self_eq_true _) (List.find?_eq_none.mp found gift (List.mem_reverse.mpr inside))
    | some last =>
      have member := List.mem_reverse.mp (List.mem_of_find?_eq_some found)
      have same : last.id = gift.id := by simpa using List.find?_some found
      rw [lastGiven, found, Option.map_some, agree last member gift inside same]

/-- If a schema that comes on its own has an identifier that came before, whether on its own or in a repository, then it is
refused. Otherwise each identifier holds the schema that came last with it, so all of the schemas are held exactly if those
of one identifier are the same. -/
theorem repository_created {files : FileTree} {arguments : List Argument}
    (others : ∀ other, .repository other ∈ arguments → Created other) :
    (∀ repository, create files arguments = .ok repository → ∃ gifts, giftsOfAll files arguments = .ok gifts) ∧
    ∀ gifts, giftsOfAll files arguments = .ok gifts →
      (∀ gift ∈ gifts, idOf gift.schema.data = .ok gift.id) ∧
      ((Admissible gifts ∧ ∃ repository, create files arguments = .ok repository ∧ repository.ids.Nodup ∧
          (∀ id, repository.schemas.lookup id = lastGiven id gifts) ∧
          ((∀ gift ∈ gifts, repository.schemas.lookup gift.id = some gift.schema) ↔
            ∀ first ∈ gifts, ∀ second ∈ gifts, first.id = second.id → first.schema = second.schema)) ∨
        ∃ before gift after, gifts = before ++ gift :: after ∧ gift.alone = true ∧
          (∃ earlier ∈ before, earlier.id = gift.id) ∧ Admissible before ∧
          create files arguments = .error (.duplicateSchema gift.id)) := by
  refine ⟨fun _ => create_gives, ?_⟩
  intro gifts given
  refine ⟨gifts_state given fun other among => (others other among).labelled, ?_⟩
  rw [create, create_gifts given]
  rcases @accepted_or_named empty gifts with
    ⟨fresh, result, accepted⟩ | ⟨before, gift, after, split, alone, known, fresh, named⟩
  · obtain ⟨distinct, held⟩ := accepted_held accepted List.nodup_nil
    have last (id : String) : result.schemas.lookup id = lastGiven id gifts := (held id).trans (Option.or_none)
    refine .inl ⟨fresh.2, result, accepted, distinct, last, ?_⟩
    simp only [last, lastGiven_agrees]
  · exact .inr ⟨before, gift, after, split, alone, known.resolve_left List.not_mem_nil, fresh.2, named⟩

private def sample (id type : String) : Data := .record [("$id", .text id), ("type", .text type)]

private def sampleRepository : Repository := ⟨[("a", .plain (sample "a#" "integer"))]⟩

private theorem sample_others {first : Data} :
    ∀ other, Argument.repository other ∈ [.schema first, .repository sampleRepository] → Created other := by
  intro other among
  rcases List.mem_cons.mp among with same | later
  · cases same
  · cases List.mem_singleton.mp later
    refine @Created.from .empty [.schema (sample "a#" "integer")] _ ?_ rfl
    intro other among
    cases List.mem_singleton.mp among

/-- A schema and a repository with another one. -/
theorem repository_created_apart :
    ∃ repository, create .empty [.schema (sample "b" "string"), .repository sampleRepository] = .ok repository ∧
      repository.schemas.lookup "a" = some (.plain (sample "a#" "integer")) ∧
      repository.schemas.lookup "b" = some (.plain (sample "b" "string")) := by
  obtain ⟨-, created | ⟨_, _, _, -, -, -, -, refused⟩⟩ :=
    (@repository_created .empty [.schema (sample "b" "string"), .repository sampleRepository] sample_others).2 _ rfl
  · obtain ⟨-, repository, made, -, last, -⟩ := created
    exact ⟨repository, made, last "a", last "b"⟩
  · cases refused

/-- The schema in a repository replaces one that came before it. -/
theorem repository_replaces :
    ¬ ∀ (arguments : List Argument) (gifts : List Gift) (repository : Repository),
      (∀ other, .repository other ∈ arguments → Created other) → giftsOfAll .empty arguments = .ok gifts →
      create .empty arguments = .ok repository → ∀ gift ∈ gifts, repository.schemas.lookup gift.id = some gift.schema := by
  intro always
  have held := always [.schema (sample "a" "string"), .repository sampleRepository] _ _ sample_others rfl rfl _
    List.mem_cons_self
  have other : some (Marked.plain (sample "a#" "integer")) = some (Marked.plain (sample "a" "string")) := held
  simp [sample, Data.record, Marked.plain, Marked.plainFields] at other

end

end TypeCatalog.Proofs
