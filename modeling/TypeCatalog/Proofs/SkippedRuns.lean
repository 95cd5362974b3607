import Mathlib.Computability.StateTransition
import TypeCatalog.Proofs.SourceGaps

/-! Skipping, told in other ways. A scanner goes from character to character and knows only whether it is in a comment;
where it stops, skipping ends. The text that is skipped is the longest that consists of white space and comments, and
its comments are those that a search in it finds. -/

namespace TypeCatalog.Proofs
open Source Text StateTransition

/-- Whether a scanner is in a comment. -/
inductive Mode where
  | outside
  | inside

/-- The move of a scanner at a position of a text. Outside of comments it goes over a white space character, or over the
two hyphens that a comment starts with. Inside it goes up to the end of the line, where it is outside again. -/
def advance (content : List Char) : Mode × Nat → Option (Mode × Nat)
  | (.outside, position) => match content.drop position with
    | c :: rest =>
      if isBlank c then some (.outside, position + 1)
      else if c = '-' ∧ rest.head? = some '-' then some (.inside, position + 2)
      else none
    | [] => none
  | (.inside, position) => match content.drop position with
    | c :: _ => if c = '\n' then some (.outside, position) else some (.inside, position + 1)
    | [] => none

/-- A scanner in a state makes moves until it stops at a position. -/
def Stops (content : List Char) (state : Mode × Nat) (stop : Nat) : Prop :=
  ∃ mode, (mode, stop) ∈ eval (advance content) state

section
variable {content rest : List Char} {c : Char} {state next : Mode × Nat} {mode : Mode} {position stop other : Nat}

theorem Stops.before (stops : Stops content next stop) (move : advance content state = some next) :
    Stops content state stop := by
  obtain ⟨mode, ended⟩ := stops
  refine ⟨mode, ?_⟩
  rw [reaches_eval (.single move)]
  exact ended

theorem stops_here (still : advance content (mode, position) = none) : Stops content (mode, position) position :=
  ⟨mode, mem_eval.mpr ⟨.refl, still⟩⟩

theorem Stops.unique (first : Stops content state stop) (second : Stops content state other) : other = stop := by
  obtain ⟨_, ended⟩ := first
  obtain ⟨_, again⟩ := second
  exact congrArg Prod.snd (Part.mem_unique again ended)

private theorem advance_blank (here : content.drop position = c :: rest) (blank : isBlank c = true) :
    advance content (.outside, position) = some (.outside, position + 1) := by
  simp only [advance, here, blank, if_true]

private theorem advance_comment (here : content.drop position = '-' :: '-' :: rest) :
    advance content (.outside, position) = some (.inside, position + 2) := by
  simp only [advance, here]
  rfl

private theorem advance_settled (settled : Settled (content.drop position)) :
    advance content (.outside, position) = none := by
  rw [advance]
  split
  next c rest here =>
    obtain ⟨solid, plain⟩ := here ▸ settled
    rw [opens_cons] at solid
    have apart : ¬ (c = '-' ∧ rest.head? = some '-') := by
      rintro ⟨rfl, follows⟩
      obtain ⟨more, rfl⟩ := List.head?_eq_some_iff.mp follows
      exact plain ⟨more, rfl⟩
    rw [if_neg (Bool.eq_false_iff.mp solid), if_neg apart]
  next => rfl

private theorem advance_line (here : content.drop position = '\n' :: rest) :
    advance content (.inside, position) = some (.outside, position) := by
  simp only [advance, here, if_true]

private theorem advance_text (here : content.drop position = c :: rest) (different : c ≠ '\n') :
    advance content (.inside, position) = some (.inside, position + 1) := by
  simp only [advance, here, different, if_false]

private theorem advance_end (here : content.drop position = []) : advance content (.inside, position) = none := by
  simp only [advance, here]

private theorem drop_next (here : content.drop position = c :: rest) : content.drop (position + 1) = rest := by
  rw [← List.drop_drop, here]
  rfl

/-- A scanner that starts outside of a comment stops at the end of the run. -/
theorem outside_stops (content text : List Char) : ∀ position, content.drop position = text →
    Stops content (.outside, position) (position + (Run.outside text).length) := by
  induction text using Run.outside.induct (motive_2 := fun text => ∀ position, content.drop position = text →
      Stops content (.inside, position) (position + (Run.inside text).2.length)) with
  | case1 rest comment run inner ih =>
    intro position here
    have later := ih (position + 2) (drop_next (drop_next here))
    rw [Nat.add_right_comm] at later
    rw [Run.outside]
    exact later.before (advance_comment here)
  | case2 c rest _ blank ih =>
    intro position here
    have later := ih (position + 1) (drop_next here)
    rw [Nat.add_right_comm] at later
    rw [outside_blank blank]
    exact later.before (advance_blank here blank)
  | case3 c rest apart solid =>
    intro position here
    have settled : Settled (c :: rest) := by
      refine ⟨Bool.eq_false_iff.mpr solid, ?_⟩
      rintro ⟨more, same⟩
      cases same
      exact apart more rfl rfl
    rw [outside_settled settled]
    exact stops_here (advance_settled (here ▸ settled))
  | case4 =>
    intro position here
    rw [outside_settled settled_nil]
    exact stops_here (advance_settled (here ▸ settled_nil))
  | case5 c rest line ih position here =>
    obtain rfl := eq_of_beq line
    have later := ih (position + 1) (drop_next here)
    rw [Nat.add_right_comm] at later
    rw [Run.inside, if_pos line]
    exact (later.before (advance_blank here rfl)).before (advance_line here)
  | case6 c rest other comment run inner ih position here =>
    have later := ih (position + 1) (drop_next here)
    rw [Nat.add_right_comm] at later
    rw [Run.inside, if_neg other]
    exact later.before (advance_text here (by simpa using other))
  | case7 position here =>
    rw [Run.inside]
    exact stops_here (advance_end here)

end

/-- The comments of a text, found from its front on: each goes from two hyphens to the end of the line. -/
def commentsIn : List Char → List (List Char)
  | '-' :: '-' :: rest => rest.takeWhile (· != '\n') :: commentsIn (rest.dropWhile (· != '\n'))
  | _ :: rest => commentsIn rest
  | [] => []
termination_by text => text.length
decreasing_by
  · have shorter := List.length_dropWhile_le (· != '\n') rest
    simp only [List.length_cons]
    omega
  · simp

theorem outside_comments (text : List Char) :
    commentsIn (text.take (Run.outside text).length) = (Run.outside text).comments := by
  induction text using Run.outside.induct (motive_2 := fun text =>
      (text.take (Run.inside text).2.length).takeWhile (· != '\n') = (Run.inside text).1 ∧
        commentsIn ((text.take (Run.inside text).2.length).dropWhile (· != '\n')) = (Run.inside text).2.comments) with
  | case1 rest comment run inner ih =>
    obtain ⟨own, others⟩ := ih
    rw [Run.outside]
    simp only [List.take_succ_cons, commentsIn, own, others]
  | case2 c rest apart blank ih =>
    rw [outside_blank blank, Run.longer, List.take_succ_cons, commentsIn]
    · exact ih
    · rintro more rfl
      exact absurd rfl (blank_ne_hyphen blank)
  | case3 c rest apart solid =>
    rw [Run.outside.eq_2 _ _ apart, if_neg solid]
    simp [commentsIn]
  | case4 => simp [Run.outside, commentsIn]
  | case5 c rest line ih =>
    obtain rfl := eq_of_beq line
    rw [Run.inside, if_pos line, Run.longer]
    simp [commentsIn, ih]
  | case6 c rest other comment run inner ih =>
    obtain ⟨own, others⟩ := ih
    have different : (c != '\n') = true := by simpa using other
    rw [Run.inside, if_neg other]
    simp [Run.longer, different, own, others]
  | case7 => simp [Run.inside, commentsIn]

theorem outside_parts (text : List Char) :
    Ending (text.take (Run.outside text).length) ∧ (Run.outside text).rest = text.drop (Run.outside text).length := by
  rcases (outside_splits text).2 with ⟨gap, skipped, size, split⟩ | ⟨ending, empty, size⟩
  · have front : text.take (Run.outside text).length = gap := by
      rw [← size]
      exact (congrArg (List.take gap.length) split).trans List.take_left
    have back : text.drop (Run.outside text).length = (Run.outside text).rest := by
      rw [← size]
      exact (congrArg (List.drop gap.length) split).trans List.drop_left
    rw [front]
    exact ⟨.closed skipped, back.symm⟩
  · rw [size, List.take_length, List.drop_length]
    exact ⟨ending, empty⟩

private theorem inside_longest {line : List Char} (same : '\n' ∉ line) (rest : List Char) :
    line.length ≤ (Run.inside (line ++ rest)).2.length := by
  induction line with
  | nil => exact Nat.zero_le _
  | cons c line ih =>
    obtain ⟨different, others⟩ := not_or.mp (List.mem_cons.not.mp same)
    have other : (c == '\n') = false := beq_false_of_ne (Ne.symm different)
    rw [List.cons_append, Run.inside, other]
    exact Nat.succ_le_succ (ih others)

/-- No white space and comments at the front of a text are longer than its run. -/
theorem outside_longest {front : List Char} (ending : Ending front) (rest : List Char) :
    front.length ≤ (Run.outside (front ++ rest)).length := by
  cases ending with
  | closed gap =>
    rw [outside_over gap]
    exact Nat.le_add_right ..
  | @comment gap line comments skipped same =>
    rw [List.append_assoc, outside_over skipped, List.length_append]
    apply Nat.add_le_add_left
    change line.length + 2 ≤ (Run.outside ('-' :: '-' :: (line ++ rest))).length
    rw [Run.outside]
    exact Nat.add_le_add_right (inside_longest same rest) 2

/-- The texts of comments without the white space around them, joined by single spaces. Blank comments do not count. -/
def joined (comments : List (List Char)) : Option String :=
  match comments.filter (·.any (!isBlank ·)) with
  | [] => none
  | told => some (String.ofList ([' '].intercalate (told.map strip)))

theorem comment_joined (run : Run) : run.comment = joined run.comments := by
  have told (comment : List Char) : (!(strip comment).isEmpty) = comment.any (!isBlank ·) := by
    rw [Bool.eq_iff_iff]
    simp [strip_empty]
  have lines : (run.comments.map strip).filter (!·.isEmpty) = (run.comments.filter (·.any (!isBlank ·))).map strip := by
    rw [List.filter_map]
    exact congrArg (List.map strip) (List.filter_congr fun comment _ => told comment)
  rw [Run.comment, lines, joined]
  cases run.comments.filter (·.any (!isBlank ·)) <;> rfl

/-- Where the white space and comments that start at an offset of a text end. -/
def runEnd (content : List Char) (offset : Nat) : Nat := offset + (Run.outside (content.drop offset)).length

section
variable (content : List Char) (offset : Nat)

private theorem extract_run : content.extract offset (runEnd content offset) =
    (content.drop offset).take (Run.outside (content.drop offset)).length := by
  rw [List.extract_eq_take_drop, runEnd, Nat.add_sub_cancel_left]

theorem runEnd_rest : (Run.outside (content.drop offset)).rest = content.drop (runEnd content offset) := by
  rw [(outside_parts _).2, List.drop_drop, runEnd]

theorem runEnd_ending : Ending (content.extract offset (runEnd content offset)) := by
  rw [extract_run]
  exact (outside_parts _).1

theorem runEnd_longest {other : Nat} (inside : other ≤ content.length)
    (ending : Ending (content.extract offset other)) : other ≤ runEnd content offset := by
  have bound := outside_longest ending ((content.drop offset).drop (other - offset))
  rw [List.extract_eq_take_drop, List.take_append_drop, List.length_take, List.length_drop] at bound
  rw [runEnd]
  omega

theorem runEnd_again : runEnd content (runEnd content offset) = runEnd content offset := by
  have settled := outside_settled (outside_splits (content.drop offset)).1
  rw [runEnd_rest] at settled
  rw [runEnd, settled, Nat.add_zero]

/-- The comment that a text carries between two offsets. -/
def commentBetween (content : List Char) (start stop : Nat) : Option String :=
  joined (commentsIn (content.extract start stop))

theorem commentBetween_self : commentBetween content offset offset = none := by
  rw [commentBetween, List.extract_eq_take_drop, Nat.sub_self, List.take_zero, commentsIn]
  rfl

theorem runEnd_comment :
    (Run.outside (content.drop offset)).comment = commentBetween content offset (runEnd content offset) := by
  rw [commentBetween, extract_run, outside_comments, comment_joined]

theorem skip_runEnd : Cursor.skip ⟨offset, content.drop offset⟩ =
    (⟨decide (runEnd content offset < content.length), commentBetween content offset (runEnd content offset)⟩,
      ⟨runEnd content offset, content.drop (runEnd content offset)⟩) := by
  have more : (!(content.drop (runEnd content offset)).isEmpty) = decide (runEnd content offset < content.length) := by
    rw [Bool.eq_iff_iff]
    simp
  rw [← more, ← runEnd_comment, ← runEnd_rest]
  rfl

end

/-- From any position of a text, skipping leads to where a scanner that starts there stops,
and tells whether text is left. The text between them is the longest that consists of white space and comments. The
comment that is told is that of the comments in it, or none if they are all blank. Skipping again moves nothing and
tells no comment. -/
theorem skip_scans (content : List Char) (offset : Nat) : ∃ stop comment,
    Cursor.skip ⟨offset, content.drop offset⟩ = (⟨decide (stop < content.length), comment⟩, ⟨stop, content.drop stop⟩) ∧
    (∀ other, Stops content (.outside, offset) other ↔ other = stop) ∧
    Ending (content.extract offset stop) ∧
    (∀ other ≤ content.length, Ending (content.extract offset other) → other ≤ stop) ∧
    comment = joined (commentsIn (content.extract offset stop)) ∧
    Cursor.skip ⟨stop, content.drop stop⟩ = (⟨decide (stop < content.length), none⟩, ⟨stop, content.drop stop⟩) := by
  have stops : Stops content (.outside, offset) (runEnd content offset) := outside_stops content _ offset rfl
  refine ⟨runEnd content offset, _, skip_runEnd content offset, ?_, runEnd_ending content offset, ?_, rfl, ?_⟩
  · intro other
    constructor
    · exact stops.unique
    · rintro rfl
      exact stops
  · exact fun other => runEnd_longest content offset
  · rw [skip_runEnd, runEnd_again, commentBetween_self]

private def remarks : List Char := "a -- x\n--\t\n- b".toList

/-- A comment with text and a blank one lie between a lexeme and a hyphen by itself. -/
theorem skip_scans_remarks :
    Cursor.skip ⟨1, remarks.drop 1⟩ = (⟨true, some "x"⟩, ⟨11, remarks.drop 11⟩) ∧ Stops remarks (.outside, 1) 11 ∧
      (6 ≤ remarks.length ∧ Ending (remarks.extract 1 6) ∧ 6 ≤ 11) ∧
      joined (commentsIn (remarks.extract 1 11)) = some "x" := by
  obtain ⟨stop, comment, skipped, stops, -, longest, told, -⟩ := skip_scans remarks 1
  have run : Cursor.skip ⟨1, remarks.drop 1⟩ = (⟨true, some "x"⟩, ⟨11, remarks.drop 11⟩) := by rfl
  rw [run] at skipped
  obtain ⟨same, there⟩ := Prod.mk.inj skipped
  obtain rfl : stop = 11 := (congrArg Cursor.offset there).symm
  obtain rfl : comment = some "x" := (congrArg Skip.comment same).symm
  have line : Ending (remarks.extract 1 6) := .comment (.blank rfl .empty) (by decide : '\n' ∉ [' ', 'x'])
  exact ⟨run, (stops 11).mpr rfl, ⟨by decide, line, longest 6 (by decide) line⟩, told.symm⟩

end TypeCatalog.Proofs
