import TypeCatalog.Source.Demand
import TypeCatalog.Proofs.SkippedRuns
import TypeCatalog.Proofs.SourcePaths

/-! Demands that a cursor meets in turn. Whether they are met or not, the cursor goes through the text from its start to
its end. What it goes over without matching is white space and comments, so these are all that lies between the lexemes
it matches. -/

namespace TypeCatalog.Proofs
open Source Text

section
variable {α : Type} {scan : Scan α}

private theorem Reads.split {promised : α → List Char → List Char → Prop} (reads : Reads scan promised) :
    Reads scan fun _ _ _ => True :=
  reads.weaken fun _ _ _ _ => trivial

private theorem reads_parts {promised : α → List Char → List Char → Prop} (reads : Reads scan promised)
    (parts : α → List (Option (List Char))) : Reads (scan >>= fun value => pure (parts value)) fun _ _ _ => True :=
  reads.bind fun value _ => .pure (parts value) fun _ _ => trivial

end

theorem reads_captures (form : Pattern) : Reads form.captures fun _ _ _ => True := by
  cases form with
  | header => exact reads_parts reads_header _
  | application => exact reads_parts reads_application _
  | series => exact reads_parts reads_series _
  | enumerated => exact reads_parts (reads_keyword "ENUMERATED") _
  | bitString => exact reads_parts reads_bitString _
  | octetString => exact reads_parts reads_octetString _
  | typeName => exact reads_parts reads_typeName _
  | size => exact reads_parts reads_size _
  | constraint => exact reads_parts reads_constraint fun bounds => [some bounds.1, bounds.2]
  | itemName => exact reads_parts reads_itemName _
  | itemNumber => exact reads_parts reads_itemNumber _
  | contextTag => exact reads_parts reads_contextTag _
  | optional => exact reads_parts (reads_keyword "OPTIONAL") _

theorem reads_expected (expected : Expected) : Reads expected.scan fun found lexeme _ => found.lexeme = lexeme := by
  cases expected with
  | literal text =>
    refine (reads_literal text.toList).bind fun _ _ => .pure _ fun rest same => ?_
    rw [same, List.append_nil]
  | pattern form =>
    intro text taken accepted
    obtain ⟨inner, found, rfl⟩ := Option.map_eq_some_iff.mp accepted
    exact ⟨(reads_captures form text inner found).1, rfl⟩

def cursorAt (content : List Char) (offset : Nat) : Cursor := ⟨offset, content.drop offset⟩

/-- All white space and comments from one offset on lie between it and another one. -/
structure Passed (content : List Char) (start stop : Nat) : Prop where
  forward : start ≤ stop
  bound : stop ≤ content.length
  ending : Ending (content.extract start stop)
  longest : ∀ other ≤ content.length, Ending (content.extract start other) → other ≤ stop

/-- What comes of a demand on a cursor in a text. -/
inductive Orderly {α : Type} (content : List Char) : Turn α → Prop where
  | skipped {offset stop : Nat} (passed : Passed content offset stop) :
      Orderly content ⟨cursorAt content offset, .skip,
        .skipped ⟨decide (stop < content.length), commentBetween content offset stop⟩, cursorAt content stop⟩
  /-- The lexeme starts after white space and comments, and the cursor is left at its end. -/
  | matched {offset start stop : Nat} {demand : Demand α} {expected : Expected} {transform : Match → α}
      {captures : Option (List (Option (List Char)))}
      (asked : demand = .attempt expected transform ∨ demand = .require expected transform)
      (passed : Passed content offset start) (forward : start ≤ stop) (bound : stop ≤ content.length)
      (found : expected.scan (content.drop start) =
        some ⟨⟨content.extract start stop, captures⟩, content.extract start stop, content.drop stop⟩) :
      Orderly content ⟨cursorAt content offset, demand,
        .matched ⟨transform ⟨content.extract start stop, captures⟩, start, commentBetween content offset start⟩,
        cursorAt content stop⟩
  /-- The cursor is left where it was, in front of what is skipped. -/
  | missed {offset stop : Nat} {expected : Expected} {transform : Match → α} (passed : Passed content offset stop)
      (absent : expected.scan (content.drop stop) = none) :
      Orderly content ⟨cursorAt content offset, .attempt expected transform, .missed, cursorAt content offset⟩
  /-- The cursor is left where the lexeme would have to be. -/
  | rejected {offset stop : Nat} {expected : Expected} {transform : Match → α} (passed : Passed content offset stop)
      (absent : expected.scan (content.drop stop) = none) :
      Orderly content ⟨cursorAt content offset, .require expected transform,
        .rejected (.rejected (.missing expected) stop), cursorAt content stop⟩

section
variable {α : Type} {content : List Char} {offset last start stop : Nat}

private theorem runEnd_le (inside : offset ≤ content.length) : runEnd content offset ≤ content.length := by
  have length : (Run.outside (content.drop offset)).length ≤ (content.drop offset).length := by
    rcases (outside_splits (content.drop offset)).2 with ⟨gap, -, size, split⟩ | ⟨-, -, size⟩
    · rw [← size, congrArg List.length split, List.length_append]
      exact Nat.le_add_right ..
    · exact size.le
  rw [List.length_drop] at length
  rw [runEnd]
  omega

private theorem passed_run (inside : offset ≤ content.length) : Passed content offset (runEnd content offset) :=
  ⟨Nat.le_add_right .., runEnd_le inside, runEnd_ending content offset, fun _ => runEnd_longest content offset⟩

private theorem Passed.atRun (passed : Passed content start stop) : stop = runEnd content start := by
  have inside := passed.forward.trans passed.bound
  exact Nat.le_antisymm (runEnd_longest content start passed.bound passed.ending)
    (passed.longest _ (runEnd_le inside) (runEnd_ending content start))

private theorem Passed.again (passed : Passed content start stop) : Passed content stop stop := by
  have here := passed_run passed.bound
  obtain rfl := passed.atRun
  rwa [runEnd_again] at here

private theorem matched_orderly {demand : Demand α} {expected : Expected} {transform : Match → α} {token : Token Match}
    {next : Cursor} (inside : offset ≤ content.length)
    (asked : demand = .attempt expected transform ∨ demand = .require expected transform)
    (accepted : (cursorAt content offset).take? expected.scan = some (token, next)) :
    Orderly content ⟨cursorAt content offset, demand, .matched (token.map transform), next⟩ := by
  obtain ⟨⟨⟨text, captures⟩, lexeme, rest⟩, found, rfl, rfl⟩ := take_eq_some.mp accepted
  rw [cursorAt, runEnd_rest] at found
  obtain ⟨split, same⟩ := reads_expected expected _ _ found
  obtain rfl : text = lexeme := same
  change content.drop (runEnd content offset) = text ++ rest at split
  have slice : content.extract (runEnd content offset) (runEnd content offset + text.length) = text := by
    rw [List.extract_eq_take_drop, split, Nat.add_sub_cancel_left, List.take_left]
  have left : content.drop (runEnd content offset + text.length) = rest := by
    rw [← List.drop_drop, split, List.drop_left]
  have bound : runEnd content offset + text.length ≤ content.length := by
    have length := congrArg List.length split
    rw [List.length_drop, List.length_append] at length
    have reached := runEnd_le inside
    omega
  have turn := @Orderly.matched _ _ _ _ _ _ _ _ captures asked (passed_run inside) (Nat.le_add_right ..) bound
    (by rw [slice, left]; exact found)
  rw [slice, ← runEnd_comment] at turn
  rw [← left]
  exact turn

private theorem missing_run {expected : Expected} (absent : (cursorAt content offset).take? expected.scan = none) :
    expected.scan (content.drop (runEnd content offset)) = none := by
  rwa [take_eq_none, cursorAt, runEnd_rest] at absent

theorem turn_orderly (inside : offset ≤ content.length) (demand : Demand α) :
    Orderly content ((cursorAt content offset).turn demand) := by
  have skip : (cursorAt content offset).skip = _ := skip_runEnd content offset
  rw [Cursor.turn]
  cases demand with
  | skip =>
    rw [Cursor.meet, skip]
    exact .skipped (passed_run inside)
  | attempt expected transform =>
    rw [Cursor.meet]
    cases accepted : (cursorAt content offset).take? expected.scan with
    | some result => exact matched_orderly inside (.inl rfl) accepted
    | none => exact .missed (passed_run inside) (missing_run accepted)
  | require expected transform =>
    rw [Cursor.meet, Cursor.require]
    cases accepted : (cursorAt content offset).take? expected.scan with
    | some result => exact matched_orderly inside (.inr rfl) accepted
    | none =>
      rw [skip]
      exact .rejected (passed_run inside) (missing_run accepted)

/-- A turn leaves the cursor in the text, and not before where it was. -/
theorem Orderly.forward {turn : Turn α} (orderly : Orderly content turn) :
    ∃ next, turn.after = cursorAt content next ∧ turn.before.offset ≤ next ∧ next ≤ content.length := by
  cases orderly with
  | skipped passed => exact ⟨_, rfl, passed.forward, passed.bound⟩
  | matched _ passed forward bound _ => exact ⟨_, rfl, passed.forward.trans forward, bound⟩
  | missed passed _ => exact ⟨_, rfl, Nat.le_refl _, passed.forward.trans passed.bound⟩
  | rejected passed _ => exact ⟨_, rfl, passed.forward, passed.bound⟩

/-- The demands are met in their order, each from where the one before it left the cursor. -/
theorem turns_linked (cursor : Cursor) (demands : List (Demand α)) :
    (cursor.turns demands).map Turn.demand = demands ∧
      (cursor.turns demands).map Turn.before = (cursor :: (cursor.turns demands).map Turn.after).dropLast := by
  induction demands generalizing cursor with
  | nil => exact ⟨rfl, rfl⟩
  | cons demand rest ih =>
    obtain ⟨asked, linked⟩ := ih (cursor.turn demand).after
    refine ⟨congrArg (demand :: ·) asked, ?_⟩
    rw [Cursor.turns, List.map_cons, List.map_cons, List.dropLast_cons_cons, linked]
    rfl

theorem turns_forward (inside : offset ≤ content.length) (demands : List (Demand α)) :
    (∀ turn ∈ (cursorAt content offset).turns demands, Orderly content turn) ∧
      (offset :: ((cursorAt content offset).turns demands).map (·.after.offset)).Pairwise (· ≤ ·) := by
  induction demands generalizing offset with
  | nil => exact ⟨List.forall_mem_nil _, List.pairwise_singleton _ _⟩
  | cons demand rest ih =>
    have orderly := turn_orderly inside demand
    obtain ⟨next, left, forward, bound⟩ := orderly.forward
    obtain ⟨others, increasing⟩ := ih bound
    rw [Cursor.turns, left, List.map_cons, left]
    refine ⟨List.forall_mem_cons.mpr ⟨orderly, others⟩, List.pairwise_cons.mpr ⟨?_, increasing⟩⟩
    intro later member
    rcases List.mem_cons.mp member with rfl | member
    · exact forward
    · exact forward.trans (List.rel_of_pairwise_cons increasing member)

def span (turn : Turn α) : Option (Nat × Nat) :=
  match turn.reply with
  | .matched token => some (token.offset, turn.after.offset)
  | _ => none

/-- A turn matches its lexeme right after white space and comments. If it matches nothing, no more of them come after it
than before. -/
theorem Orderly.resumed {turn : Turn α} (orderly : Orderly content turn)
    (passed : Passed content turn.before.offset stop) :
    span turn = some (stop, turn.after.offset) ∨ (span turn = none ∧ Passed content turn.after.offset stop) := by
  cases orderly with
  | skipped reached =>
    obtain rfl := passed.atRun.trans reached.atRun.symm
    exact .inr ⟨rfl, reached.again⟩
  | matched _ reached =>
    obtain rfl := passed.atRun.trans reached.atRun.symm
    exact .inl rfl
  | missed => exact .inr ⟨rfl, passed⟩
  | rejected reached =>
    obtain rfl := passed.atRun.trans reached.atRun.symm
    exact .inr ⟨rfl, reached.again⟩

/-- Between the lexemes that a run matches is white space and comments. The last lexeme before the run ends at an offset
from which the cursor has gone over no others. -/
theorem turns_spans (inside : offset ≤ content.length) (first : Nat) (passed : Passed content last stop)
    (resumed : Passed content offset stop) (demands : List (Demand α)) :
    ((first, last) :: ((cursorAt content offset).turns demands).filterMap span).IsChain
      fun former latter => Passed content former.2 latter.1 := by
  induction demands generalizing offset first last stop with
  | nil => exact List.isChain_singleton _
  | cons demand rest ih =>
    have orderly := turn_orderly inside demand
    obtain ⟨next, left, -, bound⟩ := orderly.forward
    rw [Cursor.turns, left]
    rcases orderly.resumed resumed with matched | ⟨unmatched, later⟩
    · rw [List.filterMap_cons_some matched, left, List.isChain_cons_cons]
      exact ⟨passed, ih bound stop (passed_run bound) (passed_run bound)⟩
    · rw [List.filterMap_cons_none unmatched]
      rw [left] at later
      exact ih bound first passed later

/-- Whatever is asked of a cursor at the start of a text, each demand is met from where
the one before it left the cursor. The offset does not decrease and stays in the text. An attempt that fails moves
nothing, so that the next demand meets the same comment; a failure of what is required is placed after the white space
and comments, and so is the cursor. A lexeme is the text between its offset and that of the cursor after it. All that
lies between two lexemes, or in front of the first one, is white space and comments. -/
theorem turns_orderly (content : List Char) (demands : List (Demand α)) :
    let turns := (Cursor.ofText content).turns demands
    turns.map Turn.demand = demands ∧
    turns.map Turn.before = (Cursor.ofText content :: turns.map Turn.after).dropLast ∧
    (∀ turn ∈ turns, Orderly content turn ∧ turn.after.offset ≤ content.length) ∧
    (0 :: turns.map (·.after.offset)).Pairwise (· ≤ ·) ∧
    ((0, 0) :: turns.filterMap span).IsChain fun former latter => Passed content former.2 latter.1 := by
  obtain ⟨asked, linked⟩ := turns_linked (Cursor.ofText content) demands
  obtain ⟨orderly, increasing⟩ := turns_forward (Nat.zero_le content.length) demands
  have front := passed_run (Nat.zero_le content.length)
  refine ⟨asked, linked, ?_, increasing, turns_spans (Nat.zero_le content.length) 0 front front demands⟩
  intro turn member
  obtain ⟨next, left, -, bound⟩ := (orderly turn member).forward
  refine ⟨orderly turn member, ?_⟩
  rw [left]
  exact bound

example : ((Cursor.ofText "-- x\na b".toList).turns
    [.attempt (.literal "b") Match.lexeme, .attempt (.pattern .itemName) Match.lexeme,
      .require (.literal "c") Match.lexeme, .require (.literal "b") Match.lexeme]).map Turn.reply =
    [.missed, .matched ⟨['a'], 5, some "x"⟩, .rejected (.rejected (.missing (.literal "c")) 7),
      .matched ⟨['b'], 7, none⟩] := rfl

end

end TypeCatalog.Proofs
