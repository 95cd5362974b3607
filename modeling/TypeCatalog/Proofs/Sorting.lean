import TypeCatalog.Normal.Sorting
import Mathlib.Data.List.Basic
import Mathlib.Data.List.Chain

/-! By keys that are integers, sorting puts a list in their order, in which members with one key stay in the order that they
had. -/

namespace TypeCatalog.Proofs
open TypeCatalog.Normal.Sorting

section
variable {α : Type} {isLess : α → α → Bool}

theorem splitRun_append (goesOn : α → α → Bool) (last : α) (list : List α) :
    (splitRun goesOn last list).1 ++ (splitRun goesOn last list).2 = list := by
  induction list generalizing last with
  | nil => rfl
  | cons next rest ih =>
    rw [splitRun]
    split
    · rw [List.cons_append, ih]
    · rfl

theorem insert_perm (member : α) (sorted : List α) : (insert isLess member sorted).Perm (member :: sorted) := by
  fun_induction insert isLess member sorted with
  | case1 sorted none =>
    have short : sorted = [] := by
      rw [List.drop_eq_nil_iff] at none
      exact List.eq_nil_of_length_eq_zero (by omega)
    rw [short]
  | case2 sorted middle above found _ _ below _ _ ih =>
    have halves : below ++ middle :: above = sorted := by rw [← found, List.take_append_drop]
    rw [← halves]
    exact ih.append_right _
  | case3 sorted middle above found _ _ below _ _ ih =>
    have halves : below ++ middle :: above = sorted := by rw [← found, List.take_append_drop]
    rw [← halves]
    exact ((ih.cons middle).trans (.swap ..)).append_left below |>.trans List.perm_middle

end

section
variable {α : Type} {key : α → Int} {list sorted : List α}

/-- A list in the order of its keys, in which members with one key are in the order of another list. -/
structure Arranged (key : α → Int) (list sorted : List α) : Prop where
  perm : sorted.Perm list
  ascending : sorted.Pairwise fun a b => key a ≤ key b
  level : ∀ n, sorted.filter (key · == n) = list.filter (key · == n)

/-- A member is put in behind all members that are not above it. -/
theorem insert_splits (member : α) (sorted : List α) (ascending : sorted.Pairwise fun a b => key a ≤ key b) :
    ∃ below above, sorted = below ++ above ∧
      insert (fun a b => key a < key b) member sorted = below ++ member :: above ∧
      (∀ a ∈ below, key a ≤ key member) ∧ ∀ a ∈ above, key member < key a := by
  fun_induction insert (fun a b => decide (key a < key b)) member sorted with
  | case1 sorted none =>
    have short : sorted = [] := by
      rw [List.drop_eq_nil_iff] at none
      apply List.eq_nil_of_length_eq_zero
      omega
    exact ⟨[], [], short, rfl, List.forall_mem_nil _, List.forall_mem_nil _⟩
  | case2 sorted middle above found _ _ below _ less ih =>
    have halves : below ++ middle :: above = sorted := by rw [← found, List.take_append_drop]
    rw [← halves, List.pairwise_append, List.pairwise_cons] at ascending
    obtain ⟨front, ⟨upward, -⟩, -⟩ := ascending
    obtain ⟨first, second, split, made, lower, upper⟩ := ih front
    have higher : key member < key middle := of_decide_eq_true less
    refine ⟨first, second ++ middle :: above, ?_, ?_, lower, ?_⟩
    · rw [← halves, split, List.append_assoc]
    · rw [made, List.append_assoc, List.cons_append]
    · rw [List.forall_mem_append, List.forall_mem_cons]
      refine ⟨upper, higher, ?_⟩
      intro a listed
      have order := upward a listed
      omega
  | case3 sorted middle above found _ _ below _ notLess ih =>
    have halves : below ++ middle :: above = sorted := by rw [← found, List.take_append_drop]
    rw [← halves, List.pairwise_append, List.pairwise_cons] at ascending
    obtain ⟨-, ⟨-, back⟩, across⟩ := ascending
    obtain ⟨first, second, split, made, lower, upper⟩ := ih back
    have lowest : key middle ≤ key member := by simpa using notLess
    refine ⟨below ++ middle :: first, second, ?_, ?_, ?_, upper⟩
    · rw [← halves, split, List.append_assoc, List.cons_append]
    · rw [made, List.append_assoc, List.cons_append]
    · rw [List.forall_mem_append, List.forall_mem_cons]
      refine ⟨?_, lowest, lower⟩
      intro a listed
      have order := across a listed middle List.mem_cons_self
      omega

theorem Arranged.inserted (arranged : Arranged key list sorted) (member : α) :
    Arranged key (list ++ [member]) (insert (fun a b => key a < key b) member sorted) := by
  obtain ⟨perm, ascending, level⟩ := arranged
  obtain ⟨below, above, split, made, lower, upper⟩ := insert_splits member sorted ascending
  refine ⟨?_, ?_, ?_⟩
  · apply (insert_perm member sorted).trans
    exact (perm.cons member).trans (List.perm_append_singleton member list).symm
  · rw [split, List.pairwise_append] at ascending
    obtain ⟨front, back, across⟩ := ascending
    rw [made, List.pairwise_append, List.pairwise_cons]
    refine ⟨front, ⟨fun a listed => Int.le_of_lt (upper a listed), back⟩, ?_⟩
    intro a listed
    exact List.forall_mem_cons.mpr ⟨lower a listed, across a listed⟩
  · intro n
    rw [made, List.filter_append, List.filter_append, ← level n, split, List.filter_append, List.append_assoc]
    congr 1
    by_cases own : key member = n
    · have none : above.filter (key · == n) = [] := by
        rw [List.filter_eq_nil_iff]
        intro a listed same
        have order := upper a listed
        rw [beq_iff_eq] at same
        omega
      simp [own, none]
    · simp [own]

theorem splitRun_chain (goesOn : α → α → Bool) (last : α) (list : List α) :
    (last :: (splitRun goesOn last list).1).IsChain fun a b => goesOn a b = true := by
  induction list generalizing last with
  | nil => exact .singleton last
  | cons next rest ih =>
    rw [splitRun]
    split
    next onward => exact .cons_cons onward (ih next)
    next => exact .singleton last

theorem arranged_rising (ascending : list.Pairwise fun a b => key a ≤ key b) : Arranged key list list :=
  ⟨.refl list, ascending, fun _ => rfl⟩

/-- No two members of a falling run have one key, so their order does not matter. -/
theorem arranged_falling (descending : list.Pairwise fun a b => key b < key a) : Arranged key list list.reverse := by
  refine ⟨list.reverse_perm, ?_, ?_⟩
  · rw [List.pairwise_reverse]
    exact descending.imp fun less => Int.le_of_lt less
  · intro n
    have apart := descending.filter (key · == n)
    have same : ∀ a ∈ list.filter (key · == n), key a = n := by
      intro a listed
      exact beq_iff_eq.mp (List.mem_filter.mp listed).2
    rw [List.filter_reverse]
    cases kept : list.filter (key · == n) with
    | nil => rfl
    | cons a rest =>
      cases rest with
      | nil => rfl
      | cons b rest =>
        rw [kept] at apart same
        have less := (List.pairwise_cons.mp apart).1 b List.mem_cons_self
        rw [same a List.mem_cons_self, same b (List.mem_cons_of_mem _ List.mem_cons_self)] at less
        omega

/-- Sorting by keys arranges a list. -/
theorem sort_arranged (key : α → Int) (list : List α) : Arranged key list (sort (fun a b => key a < key b) list) := by
  have inserted (others : List α) {list run : List α} (arranged : Arranged key list run) :
      Arranged key (list ++ others)
        (others.foldl (fun sorted member => insert (fun a b => key a < key b) member sorted) run) := by
    induction others generalizing list run with
    | nil => simpa using arranged
    | cons member others ih =>
      have more := ih (arranged.inserted member)
      rwa [List.append_assoc] at more
  fun_cases sort (fun a b => decide (key a < key b)) list with
  | case1 first second rest falls run others same whole =>
    have parts : whole ++ others = first :: second :: rest := by
      have halves := splitRun_append (fun last next => decide (key next < key last) == falls) second rest
      rw [same] at halves
      rw [← halves]
      rfl
    have chain : (second :: run).IsChain fun a b => (decide (key b < key a) == falls) = true := by
      have all := splitRun_chain (fun last next => decide (key next < key last) == falls) second rest
      rwa [same] at all
    have whole_chain : whole.IsChain fun a b => (decide (key b < key a) == falls) = true := .cons_cons (beq_self_eq_true _) chain
    rw [← parts]
    apply inserted
    cases falling : falls with
    | true =>
      rw [falling] at whole_chain
      apply arranged_falling
      have chain : whole.IsChain fun a b => key b < key a := whole_chain.imp (by simp)
      exact chain.pairwise
    | false =>
      rw [falling] at whole_chain
      apply arranged_rising
      have chain : whole.IsChain fun a b => key a ≤ key b := whole_chain.imp (by simp)
      exact chain.pairwise
  | case2 =>
    rename_i many
    apply arranged_rising
    cases list with
    | nil => exact .nil
    | cons first rest =>
      cases rest with
      | nil => exact List.pairwise_singleton _ first
      | cons second rest => exact absurd rfl (many first second rest)

end

section
variable {α β : Type} {isLess : α → α → Bool} {isBelow : β → β → Bool} {image : β → α}

theorem splitRun_image {goesOn : α → α → Bool} {continues : β → β → Bool}
    (same : ∀ a b, goesOn (image a) (image b) = continues a b) (last : β) (list : List β) :
    splitRun goesOn (image last) (list.map image) =
      ((splitRun continues last list).1.map image, (splitRun continues last list).2.map image) := by
  induction list generalizing last with
  | nil => rfl
  | cons next rest ih =>
    rw [List.map_cons, splitRun, splitRun, same, ih next]
    split <;> rfl

theorem insert_halves {below above : List α} {middle : α} (member : α)
    (half : below.length = (below ++ middle :: above).length / 2) :
    insert isLess member (below ++ middle :: above) =
      if isLess member middle then insert isLess member below ++ middle :: above
      else below ++ middle :: insert isLess member above := by
  have upper : (below ++ middle :: above).drop ((below ++ middle :: above).length / 2) = middle :: above := by
    rw [← half, List.drop_left]
  have lower : (below ++ middle :: above).take ((below ++ middle :: above).length / 2) = below := by
    rw [← half, List.take_left]
  fun_cases insert isLess member (below ++ middle :: above) with
  | case1 none =>
    rw [upper] at none
    cases none
  | case2 _ _ found _ _ _ _ less =>
    rw [upper] at found
    cases found
    rw [if_pos less, ← lower]
  | case3 _ _ found _ _ _ _ notLess =>
    rw [upper] at found
    cases found
    rw [if_neg notLess, ← lower]

theorem insert_nil (member : α) : insert isLess member [] = [member] := by
  fun_cases insert isLess member [] with
  | case1 => rfl
  | case2 _ _ found | case3 _ _ found => simp at found

theorem insert_image (same : ∀ a b, isLess (image a) (image b) = isBelow a b) (member : β) (sorted : List β) :
    insert isLess (image member) (sorted.map image) = (insert isBelow member sorted).map image := by
  have halved {sorted above : List β} {middle : β} (found : sorted.drop (sorted.length / 2) = middle :: above) :
      sorted.take (sorted.length / 2) ++ middle :: above = sorted ∧
        ((sorted.take (sorted.length / 2)).map image).length =
          ((sorted.take (sorted.length / 2)).map image ++ image middle :: above.map image).length / 2 := by
    have parts : sorted.take (sorted.length / 2) ++ middle :: above = sorted := by rw [← found, List.take_append_drop]
    refine ⟨parts, ?_⟩
    rw [← List.map_cons, ← List.map_append, parts, List.length_map, List.length_map, List.length_take]
    omega
  fun_induction insert isBelow member sorted with
  | case1 sorted none =>
    have short : sorted = [] := by
      rw [List.drop_eq_nil_iff] at none
      apply List.eq_nil_of_length_eq_zero
      omega
    rw [short, List.map_nil, insert_nil, List.map_singleton]
  | case2 sorted middle above found _ _ below _ less ih =>
    obtain ⟨parts, half⟩ := halved found
    conv_lhs => rw [← parts, List.map_append, List.map_cons]
    rw [insert_halves _ half, same, if_pos less, ih, List.map_append, List.map_cons]
  | case3 sorted middle above found _ _ below _ notLess ih =>
    obtain ⟨parts, half⟩ := halved found
    conv_lhs => rw [← parts, List.map_append, List.map_cons]
    rw [insert_halves _ half, same, if_neg notLess, ih, List.map_append, List.map_cons]

theorem sort_image (same : ∀ a b, isLess (image a) (image b) = isBelow a b) (list : List β) :
    sort isLess (list.map image) = (sort isBelow list).map image := by
  have inserted (others run : List β) :
      (others.map image).foldl (fun sorted member => insert isLess member sorted) (run.map image) =
        (others.foldl (fun sorted member => insert isBelow member sorted) run).map image := by
    induction others generalizing run with
    | nil => rfl
    | cons member others ih =>
      rw [List.map_cons, List.foldl_cons, insert_image same, ih]
      rfl
  match list with
  | [] | [_] => rfl
  | first :: second :: rest =>
    have runs := @splitRun_image α β image (fun last next => isLess next last == isLess (image second) (image first))
      (fun last next => isBelow next last == isBelow second first) (fun a b => by rw [same, same]) second rest
    rw [List.map_cons, List.map_cons, sort, sort, runs, same]
    dsimp only
    rw [← inserted]
    cases isBelow second first <;> simp

/-- Drafts of items, say, are sorted as the items are. -/
theorem sort_map {list : List β} (same : ∀ a ∈ list, ∀ b ∈ list, isLess (image a) (image b) = isBelow a b) :
    sort isLess (list.map image) = (sort isBelow list).map image := by
  let isLower (a b : { a // a ∈ list }) : Bool := isBelow a.1 b.1
  have first := @sort_image _ _ isLess isLower (fun a => image a.1) (fun a b => same a.1 a.2 b.1 b.2) list.attach
  have second := @sort_image _ _ isBelow isLower Subtype.val (fun a b => rfl) list.attach
  rw [List.attach_map_subtype_val] at second
  rw [List.attach_map_val] at first
  rw [first, second, List.map_map]
  rfl

end

end TypeCatalog.Proofs
