import Mathlib.Algebra.Order.Ring.Int
import Mathlib.Data.List.Find
import TypeCatalog.Registry

/-! What a registry answers, told from the records it was made of. Under a key it gives the last record with that alias,
and else the last record with that name. The keys of its tables stay apart, so the records that it lists have names that
are all different. -/

namespace TypeCatalog.Proofs
open Registry

private theorem magnitude_same_symm {a b : Magnitude} (equal : a.same b = true) : b.same a = true := by
  cases a <;> cases b <;> simp_all [Magnitude.same]

private theorem scaled_positive (n : Nat) (exponent : Int) : 0 < (Double.scaled n 1 exponent).2 := by
  rw [Double.scaled]
  split
  · rw [Nat.one_mul]
    exact Nat.two_pow_pos _
  · exact Nat.one_pos

private theorem place_positive {key : Key} {numerator : Int} {denominator : Nat}
    (placed : key.place? = some (.ratio numerator denominator)) : 0 < denominator := by
  cases key with
  | null | text => cases placed
  | bool | int =>
    cases placed
    exact Nat.one_pos
  | real value =>
    cases value with
    | nan => cases placed
    | infinite negative => cases negative <;> cases placed
    | finite negative mantissa exponent =>
      cases placed
      exact scaled_positive mantissa (-exponent)

private theorem magnitude_same_trans {a b c : Magnitude} (positive : ∀ n d, b = .ratio n d → 0 < d)
    (first : a.same b = true) (second : b.same c = true) : a.same c = true := by
  cases b with
  | bottom | top => cases a <;> cases c <;> simp_all [Magnitude.same]
  | ratio n d =>
    cases a with
    | bottom | top => cases first
    | ratio p q =>
      cases c with
      | bottom | top => cases second
      | ratio r s =>
        have left : p * d = n * q := by simpa [Magnitude.same] using first
        have right : n * s = r * d := by simpa [Magnitude.same] using second
        have nonzero : (d : Int) ≠ 0 := by
          have := positive n d rfl
          omega
        have scaled : p * s * d = r * q * d := by
          calc p * s * d = p * d * s := mul_right_comm ..
            _ = n * q * s := by rw [left]
            _ = n * s * q := mul_right_comm ..
            _ = r * d * q := by rw [right]
            _ = r * q * d := mul_right_comm ..
        simpa [Magnitude.same] using mul_right_cancel₀ nonzero scaled

private theorem key_same_iff {a b : Key} : a.same b = true ↔
    (a = .null ∧ b = .null) ∨ (∃ text, a = .text text ∧ b = .text text) ∨
      ∃ m n, a.place? = some m ∧ b.place? = some n ∧ m.same n = true := by
  constructor
  · intro equal
    rw [Key.same.eq_def] at equal
    split at equal
    next first second => exact .inr (.inl ⟨first, rfl, by rw [eq_of_beq equal]⟩)
    next => exact .inl ⟨rfl, rfl⟩
    next =>
      split at equal
      next m n first second => exact .inr (.inr ⟨m, n, first, second, equal⟩)
      next => cases equal
  · rintro (⟨rfl, rfl⟩ | ⟨text, rfl, rfl⟩ | ⟨m, n, first, second, equal⟩)
    · rfl
    · exact beq_self_eq_true text
    · rw [Key.same.eq_3, first, second]
      · exact equal
      · rintro _ _ rfl
        cases first
      · rintro rfl
        cases first

theorem key_same_symm {a b : Key} (equal : a.same b = true) : b.same a = true := by
  rcases key_same_iff.mp equal with ⟨rfl, rfl⟩ | ⟨text, rfl, rfl⟩ | ⟨m, n, first, second, level⟩
  · rfl
  · exact key_same_iff.mpr (.inr (.inl ⟨text, rfl, rfl⟩))
  · exact key_same_iff.mpr (.inr (.inr ⟨n, m, second, first, magnitude_same_symm level⟩))

theorem key_same_trans {a b c : Key} (first : a.same b = true) (second : b.same c = true) : a.same c = true := by
  rcases key_same_iff.mp first with ⟨rfl, rfl⟩ | ⟨text, rfl, rfl⟩ | ⟨m, n, left, middle, level⟩
  · exact second
  · exact second
  · rcases key_same_iff.mp second with ⟨rfl, -⟩ | ⟨text, rfl, -⟩ | ⟨n', p, middle', right, level'⟩
    · cases middle
    · cases middle
    · rw [middle] at middle'
      cases middle'
      refine key_same_iff.mpr (.inr (.inr ⟨m, p, left, right, magnitude_same_trans ?_ level level'⟩))
      rintro numerator denominator rfl
      exact place_positive middle

theorem key_same_congr {a b : Key} (equal : a.same b = true) (key : Key) : a.same key = b.same key := by
  rw [Bool.eq_iff_iff]
  constructor
  · exact key_same_trans (key_same_symm equal)
  · exact key_same_trans equal

@[simp] theorem text_same (a b : String) : (Key.text a).same (.text b) = (a == b) := rfl

theorem get_put (table : Table) (key other : Key) (entry : Entry) :
    (Table.put key entry table).get? other = if key.same other then some entry else table.get? other := by
  induction table with
  | nil =>
    simp only [Table.put, Table.get?, List.find?_cons, List.find?_nil]
    split <;> simp_all
  | cons row rest ih =>
    obtain ⟨held, old⟩ := row
    rw [Table.put]
    by_cases found : held.same key = true
    · rw [if_pos found]
      simp only [Table.get?, List.find?_cons, key_same_congr found other]
      split <;> simp_all
    · rw [if_neg found]
      simp only [Table.get?, List.find?_cons] at ih ⊢
      cases here : held.same other with
      | false => exact ih
      | true =>
        have apart : key.same other = false := by
          rw [Bool.eq_false_iff]
          intro equal
          exact found (key_same_trans here (key_same_symm equal))
        simp [apart]

/-- The two keys under which a registry lists a record. -/
inductive Index where
  | byAlias
  | byName

namespace Index

def field : Index → String
  | byAlias => "alias"
  | byName => "name"

def table (registry : Registry) : Index → Table
  | byAlias => registry.byAlias
  | byName => registry.byName

end Index

/-- A record that has both keys. -/
def Listable (record : Data) : Prop := ∀ index : Index, ∃ key, keyOf record index.field = .ok key

/-- Whether a record is listed under a key. -/
def bears (index : Index) (key : Key) (record : Data) : Bool :=
  (keyOf record index.field).toOption.any (·.same key)

/-- The last record with a key. -/
def lastWith (index : Index) (key : Key) (records : List Data) : Option Data := records.reverse.find? (bears index key)

/-- The record that a registry gives for a key. -/
def answer (registry : Registry) (key : Key) : Option Data := (registry.get? key).map (·.record)

section
variable {index : Index} {key : Key} {record : Data} {records : List Data} {registry made : Registry} {entry : Entry}

theorem bears_of_key {held : Key} (known : keyOf record index.field = .ok held) :
    bears index key record = held.same key := by
  rw [bears, known]
  rfl

theorem bears_listed (bearing : bears index key record = true) :
    ∃ held, keyOf record index.field = .ok held ∧ held.same key = true := by
  cases known : keyOf record index.field with
  | error failure => simp [bears, known, Except.toOption] at bearing
  | ok held => exact ⟨held, rfl, by rwa [bears_of_key known] at bearing⟩

theorem lastWith_append (first second : List Data) :
    lastWith index key (first ++ second) = (lastWith index key second).or (lastWith index key first) := by
  rw [lastWith, List.reverse_append, List.find?_append]
  rfl

theorem lastWith_cons : lastWith index key (record :: records) =
    (lastWith index key records).or (if bears index key record then some record else none) := by
  rw [← List.singleton_append, lastWith_append]
  congr 1
  simp only [lastWith, List.reverse_singleton, List.find?_cons, List.find?_nil]
  split <;> simp_all

theorem lastWith_some (found : lastWith index key records = some record) :
    record ∈ records ∧ bears index key record = true :=
  ⟨List.mem_reverse.mp (List.mem_of_find?_eq_some found), List.find?_some found⟩

theorem lastWith_none : lastWith index key records = none ↔ ∀ record ∈ records, bears index key record = false := by
  simp [lastWith]

theorem add_ok (added : registry.add entry = .ok made) :
    ∃ held, keyOf entry.record index.field = .ok held ∧ index.table made = Table.put held entry (index.table registry) := by
  rw [Registry.add] at added
  cases first : keyOf entry.record "alias" with
  | error failure => simp [first, bind, Except.bind] at added
  | ok alias' =>
    cases second : keyOf entry.record "name" with
    | error failure => simp [first, second, bind, Except.bind] at added
    | ok name =>
      simp only [first, second, bind, Except.bind] at added
      cases added
      cases index
      · exact ⟨alias', first, rfl⟩
      · exact ⟨name, second, rfl⟩

theorem add_listable (listable : Listable entry.record) : ∃ made, registry.add entry = .ok made := by
  obtain ⟨first, hasAlias⟩ := listable .byAlias
  obtain ⟨second, hasName⟩ := listable .byName
  simp only [Index.field] at hasAlias hasName
  rw [Registry.add, hasAlias, hasName]
  exact ⟨_, rfl⟩

theorem addAll_cons {start : Nat} (added : registry.addAll start (record :: records) = .ok made) :
    ∃ middle, registry.add ⟨start, record⟩ = .ok middle ∧ middle.addAll (start + 1) records = .ok made := by
  rw [Registry.addAll] at added
  cases first : registry.add ⟨start, record⟩ with
  | error failure => simp [first, bind, Except.bind] at added
  | ok middle => exact ⟨middle, rfl, by simpa [first, bind, Except.bind] using added⟩

theorem addAll_listable {start : Nat} (listable : ∀ record ∈ records, Listable record) :
    ∃ made, registry.addAll start records = .ok made := by
  induction records generalizing registry start with
  | nil => exact ⟨registry, rfl⟩
  | cons record records ih =>
    obtain ⟨first, others⟩ := List.forall_mem_cons.mp listable
    obtain ⟨middle, added⟩ := @add_listable registry ⟨start, record⟩ first
    obtain ⟨made, rest⟩ := @ih middle (start + 1) others
    refine ⟨made, ?_⟩
    rw [Registry.addAll, added]
    exact rest

theorem listable_of_addAll {start : Nat} (added : registry.addAll start records = .ok made) :
    ∀ record ∈ records, Listable record := by
  induction records generalizing registry start with
  | nil => simp
  | cons record records ih =>
    obtain ⟨middle, first, rest⟩ := addAll_cons added
    refine List.forall_mem_cons.mpr ⟨?_, ih rest⟩
    intro index
    obtain ⟨held, known, -⟩ := @add_ok index _ _ _ first
    exact ⟨held, known⟩

theorem ofRecords_ok_iff : (∃ made, ofRecords records = .ok made) ↔ ∀ record ∈ records, Listable record := by
  constructor
  · rintro ⟨made, added⟩
    exact listable_of_addAll added
  · exact addAll_listable

theorem addAll_answer {start : Nat} (added : registry.addAll start records = .ok made) :
    ((index.table made).get? key).map (·.record) =
      (lastWith index key records).or (((index.table registry).get? key).map (·.record)) := by
  induction records generalizing registry start with
  | nil =>
    cases added
    rfl
  | cons record records ih =>
    obtain ⟨middle, first, rest⟩ := addAll_cons added
    obtain ⟨held, known, placed⟩ := @add_ok index _ _ _ first
    rw [ih rest, placed, get_put, lastWith_cons, bears_of_key known, Option.or_assoc]
    congr 1
    split <;> rfl

/-- Under one of its keys a registry holds the last record with it. -/
theorem ofRecords_table (built : ofRecords records = .ok made) :
    ((index.table made).get? key).map (·.record) = lastWith index key records := by
  have found := @addAll_answer index key _ _ _ _ built
  have nothing : (index.table Registry.empty).get? key = none := by cases index <;> rfl
  rw [found, nothing, Option.map_none, Option.or_none]

/-- A registry gives the last record with an alias, and else the last record with a name. -/
theorem answer_eq (built : ofRecords records = .ok made) :
    answer made key = (lastWith .byAlias key records).or (lastWith .byName key records) := by
  rw [answer, Registry.get?, ← ofRecords_table built, ← ofRecords_table built]
  change ((Index.byAlias.table made).get? key |>.or ((Index.byName.table made).get? key)).map _ = _
  cases (Index.byAlias.table made).get? key <;> rfl

theorem answer_mem (built : ofRecords records = .ok made) (found : made.get? key = some entry) :
    entry.record ∈ records := by
  have known : answer made key = some entry.record := by
    rw [answer, found]
    rfl
  rw [answer_eq built, Option.or_eq_some_iff] at known
  rcases known with first | ⟨-, second⟩
  · exact (lastWith_some first).1
  · exact (lastWith_some second).1

end

/-- The rows of a table have different keys, and every entry stands under its own key. -/
structure WellKeyed (index : Index) (table : Table) : Prop where
  apart : table.Pairwise fun first second => first.1.same second.1 = false
  keyed : ∀ row ∈ table, ∃ held, keyOf row.2.record index.field = .ok held ∧ ∀ key, held.same key = row.1.same key

section
variable {index : Index} {key : Key} {records : List Data} {registry made : Registry} {entry : Entry} {table : Table}

theorem mem_put {row : Key × Entry} (member : row ∈ Table.put key entry table) :
    (row.1 = key ∨ ∃ old ∈ table, old.1 = row.1) ∧ (row.2 = entry ∨ row ∈ table) := by
  induction table with
  | nil =>
    rw [Table.put, List.mem_singleton] at member
    subst member
    exact ⟨.inl rfl, .inl rfl⟩
  | cons other rest ih =>
    obtain ⟨held, old⟩ := other
    rw [Table.put] at member
    split at member
    · rcases List.mem_cons.mp member with rfl | member
      · exact ⟨.inr ⟨_, List.mem_cons_self, rfl⟩, .inl rfl⟩
      · exact ⟨.inr ⟨row, List.mem_cons_of_mem _ member, rfl⟩, .inr (List.mem_cons_of_mem _ member)⟩
    · rcases List.mem_cons.mp member with rfl | member
      · exact ⟨.inr ⟨_, List.mem_cons_self, rfl⟩, .inr List.mem_cons_self⟩
      · obtain ⟨first, second⟩ := ih member
        refine ⟨?_, second.imp_right (List.mem_cons_of_mem _)⟩
        exact first.imp_right fun ⟨older, inside, same⟩ => ⟨older, List.mem_cons_of_mem _ inside, same⟩

theorem WellKeyed.put (wellKeyed : WellKeyed index table) {held : Key} (known : keyOf entry.record index.field = .ok held) :
    WellKeyed index (Table.put held entry table) := by
  induction table with
  | nil =>
    refine ⟨List.pairwise_singleton _ _, ?_⟩
    intro row member
    rw [Table.put, List.mem_singleton] at member
    subst member
    exact ⟨held, known, fun _ => rfl⟩
  | cons row rest ih =>
    obtain ⟨here, old⟩ := row
    obtain ⟨first, others⟩ := List.pairwise_cons.mp wellKeyed.apart
    obtain ⟨own, keyed⟩ := List.forall_mem_cons.mp wellKeyed.keyed
    rw [Table.put]
    by_cases found : here.same held = true
    · rw [if_pos found]
      refine ⟨List.pairwise_cons.mpr ⟨first, others⟩, List.forall_mem_cons.mpr ⟨?_, keyed⟩⟩
      exact ⟨held, known, key_same_congr (key_same_symm found)⟩
    · rw [if_neg found]
      obtain ⟨apart, listed⟩ := ih ⟨others, keyed⟩
      refine ⟨List.pairwise_cons.mpr ⟨?_, apart⟩, List.forall_mem_cons.mpr ⟨own, listed⟩⟩
      intro row member
      rcases (mem_put member).1 with same | ⟨older, inside, same⟩
      · rw [same]
        exact Bool.eq_false_iff.mpr found
      · rw [← same]
        exact first older inside

theorem addAll_wellKeyed {start : Nat} (wellKeyed : WellKeyed index (index.table registry))
    (added : registry.addAll start records = .ok made) : WellKeyed index (index.table made) := by
  induction records generalizing registry start with
  | nil =>
    cases added
    exact wellKeyed
  | cons record records ih =>
    obtain ⟨middle, first, rest⟩ := addAll_cons added
    obtain ⟨held, known, placed⟩ := @add_ok index _ _ _ first
    apply ih _ rest
    rw [placed]
    exact wellKeyed.put known

theorem ofRecords_wellKeyed (built : ofRecords records = .ok made) : WellKeyed index (index.table made) := by
  apply addAll_wellKeyed _ built
  cases index <;> exact ⟨List.Pairwise.nil, by simp [Index.table, Registry.empty]⟩

theorem addAll_members {start : Nat} (added : registry.addAll start records = .ok made) :
    ∀ row ∈ index.table made, row ∈ index.table registry ∨ row.2.record ∈ records := by
  induction records generalizing registry start with
  | nil =>
    cases added
    exact fun row member => .inl member
  | cons record records ih =>
    obtain ⟨middle, first, rest⟩ := addAll_cons added
    obtain ⟨held, -, placed⟩ := @add_ok index _ _ _ first
    intro row member
    rcases ih rest row member with earlier | later
    · rw [placed] at earlier
      rcases (mem_put earlier).2 with new | old
      · exact .inr (by rw [new]; exact List.mem_cons_self)
      · exact .inl old
    · exact .inr (List.mem_cons_of_mem _ later)

theorem listed_mem (built : ofRecords records = .ok made) {record : Data} (listed : record ∈ made.records) :
    record ∈ records := by
  obtain ⟨row, member, rfl⟩ := List.mem_map.mp listed
  rcases @addAll_members .byName _ _ _ _ built row member with earlier | later
  · cases earlier
  · exact later

private theorem find_reverse {α : Type} {accepts : α → Bool} {list : List α}
    (once : list.Pairwise fun first second => accepts first = true → accepts second = false) :
    list.reverse.find? accepts = list.find? accepts := by
  induction list with
  | nil => rfl
  | cons first rest ih =>
    obtain ⟨only, others⟩ := List.pairwise_cons.mp once
    rw [List.reverse_cons, List.find?_append, ih others]
    cases accepted : accepts first with
    | false => simp [accepted]
    | true =>
      have missing : rest.find? accepts = none :=
        List.find?_eq_none.mpr fun second member => by simp [only second member accepted]
      simp [missing, accepted]

/-- The entries of a table are found by their own keys. -/
theorem WellKeyed.lastWith (wellKeyed : WellKeyed index table) :
    lastWith index key (table.map (·.2.record)) = (table.get? key).map (·.record) := by
  have own : ∀ row ∈ table, bears index key row.2.record = row.1.same key := by
    intro row member
    obtain ⟨held, known, same⟩ := wellKeyed.keyed row member
    rw [bears_of_key known, same]
  have once : table.Pairwise fun first second => first.1.same key = true → second.1.same key = false := by
    refine wellKeyed.apart.imp ?_
    intro first second apart found
    rw [Bool.eq_false_iff]
    intro again
    simp [key_same_trans found (key_same_symm again)] at apart
  rw [Proofs.lastWith, ← List.map_reverse, List.find?_map, Table.get?, ← find_reverse once, Option.map_map]
  congr 1
  apply List.find?_congr
  intro row member
  exact own row (List.mem_reverse.mp member)

private theorem put_fresh (fresh : ∀ row ∈ table, row.1.same key = false) :
    Table.put key entry table = table ++ [(key, entry)] := by
  induction table with
  | nil => rfl
  | cons row rest ih =>
    obtain ⟨first, others⟩ := List.forall_mem_cons.mp fresh
    rw [Table.put, if_neg (by simp [first]), ih others, List.cons_append]

/-- Two records have one and the same key. -/
def Share (index : Index) (first second : Data) : Prop :=
  ∃ held other, keyOf first index.field = .ok held ∧ keyOf second index.field = .ok other ∧ held.same other = true

/-- Records whose names are new and all different are listed after those that are there. -/
theorem addAll_fresh {start : Nat} (added : registry.addAll start records = .ok made)
    (apart : records.Pairwise fun first second => ¬ Share .byName first second)
    (fresh : ∀ row ∈ registry.byName, ∀ record ∈ records, bears .byName row.1 record = false) :
    made.records = registry.records ++ records := by
  induction records generalizing registry start with
  | nil =>
    cases added
    exact (List.append_nil _).symm
  | cons record records ih =>
    obtain ⟨middle, first, rest⟩ := addAll_cons added
    obtain ⟨held, known, placed⟩ := @add_ok .byName _ _ _ first
    obtain ⟨own, others⟩ := List.pairwise_cons.mp apart
    have unseen : ∀ row ∈ registry.byName, row.1.same held = false := by
      intro row member
      have new := fresh row member record List.mem_cons_self
      rw [bears_of_key known] at new
      rw [Bool.eq_false_iff]
      intro equal
      rw [key_same_symm equal] at new
      cases new
    have appended : middle.byName = registry.byName ++ [(held, ⟨start, record⟩)] := placed.trans (put_fresh unseen)
    rw [ih rest others]
    · simp [Registry.records, appended]
    · intro row member other listed
      rw [appended, List.mem_append, List.mem_singleton] at member
      rcases member with earlier | rfl
      · exact fresh row earlier other (List.mem_cons_of_mem _ listed)
      · rw [Bool.eq_false_iff]
        intro bearing
        obtain ⟨second, named, equal⟩ := bears_listed bearing
        exact own other listed ⟨held, second, known, named, key_same_symm equal⟩

end

end TypeCatalog.Proofs
