import TypeCatalog.Definition.Draft
import TypeCatalog.Normal.Normalize
import TypeCatalog.Proofs.Attempts
import TypeCatalog.Proofs.Sorting
import Mathlib.Order.Bounds.Defs

/-! The numbers of values and bits. Records list the items by their numbers, with none lost and none moved past another one
that has its number, and take their limits from the least and the greatest number. -/

namespace TypeCatalog.Proofs
open TypeCatalog.Normal Source

/-- Items that have numbers, as values and bits do. -/
def Numbered (items : List Item) : Prop := ∀ item ∈ items, item.number.isSome = true

def place (item : Item) : Int := item.number.getD 0

def numbersOf (items : List Item) : Set Int := {n | ∃ item ∈ items, item.number = some n}

def numberedEntry (key : String) (item : Item) : Data :=
  .record [("alias", .text item.name), ("name", .text (Name.ofItem item.name)), (key, .int (place item))]

theorem isLess_int (m n : Int) : (Data.int m).isLess (.int n) = decide (m < n) := by
  simp [Data.isLess, Data.place?, Magnitude.ofInt, Magnitude.lt]

/-- The choice among integers that takes another one as soon as it is better. -/
theorem foldl_best {better : Int → Int → Prop} [DecidableRel better] (asymm : ∀ a b, better a b → ¬ better b a)
    (trans : ∀ a b c, ¬ better a b → ¬ better b c → ¬ better a c) (first : Int) (rest : List Int) :
    ∃ best ∈ first :: rest, rest.foldl (fun found n => if better n found then n else found) first = best ∧
      ∀ n ∈ first :: rest, ¬ better n best := by
  induction rest generalizing first with
  | nil =>
    refine ⟨first, List.mem_singleton_self first, rfl, ?_⟩
    rw [List.forall_mem_singleton]
    intro own
    exact asymm first first own own
  | cons n rest ih =>
    rw [List.foldl_cons]
    by_cases taken : better n first
    · obtain ⟨best, inside, same, none⟩ := ih n
      obtain ⟨own, others⟩ := List.forall_mem_cons.mp none
      rw [if_pos taken]
      refine ⟨best, List.mem_cons_of_mem first inside, same, List.forall_mem_cons.mpr ⟨?_, none⟩⟩
      exact trans first n best (asymm n first taken) own
    · obtain ⟨best, inside, same, none⟩ := ih first
      obtain ⟨own, others⟩ := List.forall_mem_cons.mp none
      rw [if_neg taken]
      refine ⟨best, ?_, same, List.forall_mem_cons.mpr ⟨own, List.forall_mem_cons.mpr ⟨trans n first best taken own, others⟩⟩⟩
      rcases List.mem_cons.mp inside with rfl | later
      · exact List.mem_cons_self
      · exact List.mem_cons_of_mem _ (List.mem_cons_of_mem _ later)

theorem greatest_int (n : Int) (others : List Int) : ∃ high ∈ n :: others,
    greatest (.int n) (others.map .int) = .int high ∧ ∀ m ∈ n :: others, m ≤ high := by
  have same : greatest (.int n) (others.map .int) = .int (others.foldl (fun found m => if found < m then m else found) n) := by
    induction others generalizing n with
    | nil => rfl
    | cons m others ih =>
      rw [List.foldl_cons, ← ih]
      simp only [greatest, List.map_cons, List.foldl_cons, isLess_int, decide_eq_true_eq, apply_ite Data.int]
  obtain ⟨high, inside, found, upper⟩ := @foldl_best (fun a b => b < a) _ (by omega) (by omega) n others
  exact ⟨high, inside, by rw [same, found], fun m listed => Int.not_lt.mp (upper m listed)⟩

theorem least_int (n : Int) (others : List Int) : ∃ low ∈ n :: others,
    least (.int n) (others.map .int) = .int low ∧ ∀ m ∈ n :: others, low ≤ m := by
  have same : least (.int n) (others.map .int) = .int (others.foldl (fun found m => if m < found then m else found) n) := by
    induction others generalizing n with
    | nil => rfl
    | cons m others ih =>
      rw [List.foldl_cons, ← ih]
      simp only [least, List.map_cons, List.foldl_cons, isLess_int, decide_eq_true_eq, apply_ite Data.int]
  obtain ⟨low, inside, found, lower⟩ := @foldl_best (fun a b => a < b) _ (by omega) (by omega) n others
  exact ⟨low, inside, by rw [same, found], fun m listed => Int.not_lt.mp (lower m listed)⟩

section
variable {items : List Item} {item first : Item} {rest : List Item}

theorem listDraft_eq (items : List Item) : Item.listDraft items = items.map Item.draft := by
  induction items with
  | nil => rfl
  | cons item rest ih => rw [Item.listDraft, ih, List.map_cons]

theorem number_draft (numbered : item.number.isSome = true) : item.draft.number = .int (place item) := by
  obtain ⟨name, number⟩ := item
  cases number with
  | none => cases numbered
  | some n => rfl

theorem numbers_draft (numbered : Numbered items) :
    (Item.listDraft items).map (·.number) = (items.map place).map .int := by
  rw [listDraft_eq, List.map_map, List.map_map]
  exact List.map_congr_left fun item listed => number_draft (numbered item listed)

theorem mem_numbersOf (numbered : Numbered items) (n : Int) : n ∈ numbersOf items ↔ n ∈ items.map place := by
  rw [List.mem_map]
  constructor
  · intro known
    obtain ⟨item, listed, own⟩ := known
    exact ⟨item, listed, by rw [place, own, Option.getD_some]⟩
  · intro known
    obtain ⟨item, listed, rfl⟩ := known
    obtain ⟨n, own⟩ := Option.isSome_iff_exists.mp (numbered item listed)
    exact ⟨item, listed, by rw [place, own, Option.getD_some]⟩

theorem extent_numbers (numbered : Numbered (first :: rest)) : ∃ low high : Int,
    extent first.draft (Item.listDraft rest) = .ok (.int low, .int (high + 1)) ∧
      IsLeast (numbersOf (first :: rest)) low ∧ IsGreatest (numbersOf (first :: rest)) high := by
  obtain ⟨own, others⟩ := List.forall_mem_cons.mp numbered
  have numbers : (first.draft :: Item.listDraft rest).all (·.number.isNumber) = true := by
    rw [List.all_eq_true]
    intro draft listed
    have member : draft.number ∈ (Item.listDraft (first :: rest)).map (·.number) := List.mem_map_of_mem listed
    rw [numbers_draft numbered] at member
    obtain ⟨n, -, same⟩ := List.mem_map.mp member
    rw [← same]
    rfl
  obtain ⟨low, bottom, least, lower⟩ := least_int (place first) (rest.map place)
  obtain ⟨high, top, greatest, upper⟩ := greatest_int (place first) (rest.map place)
  refine ⟨low, high, ?_, ⟨(mem_numbersOf numbered low).mpr bottom, ?_⟩, (mem_numbersOf numbered high).mpr top, ?_⟩
  · rw [extent, numbers, number_draft own, numbers_draft others]
    change (next (Normal.greatest (.int (place first)) _) >>= fun after =>
      pure (Normal.least (.int (place first)) _, after)) = _
    rw [greatest, least]
    rfl
  · intro n known
    exact lower n ((mem_numbersOf numbered n).mp known)
  · intro n known
    exact upper n ((mem_numbersOf numbered n).mp known)

theorem numbered_arranged (numbered : Numbered items) : ∃ sorted, Arranged place items sorted ∧
    ∀ key, Normal.numbered key (Item.listDraft items) = .ok (sorted.map (numberedEntry key)) := by
  have arranged := sort_arranged place items
  refine ⟨_, arranged, ?_⟩
  intro key
  have drafts : sortByNumber (items.map Item.draft) =
      (Sorting.sort (fun a b => decide (place a < place b)) items).map Item.draft := by
    apply sort_map
    intro a listed b other
    rw [number_draft (numbered a listed), number_draft (numbered b other), isLess_int]
  rw [Normal.numbered, listDraft_eq, drafts]
  have known : Numbered (Sorting.sort (fun a b => decide (place a < place b)) items) := by
    intro item listed
    exact numbered item (arranged.perm.mem_iff.mp listed)
  clear drafts arranged
  generalize Sorting.sort (fun a b => decide (place a < place b)) items = sorted at known
  induction sorted with
  | nil => rfl
  | cons item sorted ih =>
    obtain ⟨own, others⟩ := List.forall_mem_cons.mp known
    have named : Name.ofItemData item.draft.name = .ok (Name.ofItem item.name) := by
      cases item
      rfl
    have called : item.draft.name = .text item.name := by
      cases item
      rfl
    rw [List.map_cons, List.mapM_cons, ih others, named, number_draft own, called]
    rfl

end

end TypeCatalog.Proofs
