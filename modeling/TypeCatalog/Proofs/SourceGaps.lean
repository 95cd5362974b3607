import TypeCatalog.Source.Cursor
import TypeCatalog.Proofs.Recognisers

/-! What stands between lexemes. A gap is white space and whole comments; the last one of a text may end inside a
comment. The scanner of a cursor skips exactly a gap, and deleting comments and white space from a text deletes gaps
and nothing else. -/

namespace TypeCatalog.Proofs
open Source Text

/-- White space and whole comments, with the texts of the comments in order. -/
inductive Gap : List Char → List (List Char) → Prop where
  | empty : Gap [] []
  | blank {c : Char} {gap : List Char} {comments : List (List Char)} (blank : isBlank c = true)
      (rest : Gap gap comments) : Gap (c :: gap) comments
  | comment {text gap : List Char} {comments : List (List Char)} (line : '\n' ∉ text) (rest : Gap gap comments) :
      Gap ('-' :: '-' :: (text ++ '\n' :: gap)) (text :: comments)

/-- What may follow the last lexeme: a gap, and a comment that the text ends in. -/
inductive Ending : List Char → Prop where
  | closed {text : List Char} {comments : List (List Char)} (gap : Gap text comments) : Ending text
  | comment {front text : List Char} {comments : List (List Char)} (gap : Gap front comments) (line : '\n' ∉ text) :
      Ending (front ++ '-' :: '-' :: text)

theorem blanks_gap {blanks : List Char} (all : ∀ c ∈ blanks, isBlank c = true) : Gap blanks [] := by
  induction blanks with
  | nil => exact .empty
  | cons c rest ih =>
    obtain ⟨white, others⟩ := List.forall_mem_cons.mp all
    exact .blank white (ih others)

/-- The comment that the comments of a gap make up: those that are not blank, without white space around them, joined
by single spaces. -/
def commentOf (comments : List (List Char)) : Option String := (Run.mk 0 comments []).comment

theorem strip_empty {text : List Char} : strip text = [] ↔ ∀ c ∈ text, isBlank c = true := by
  constructor
  · intro empty
    have nothing : (text.dropWhile isBlank).reverse.dropWhile isBlank = [] := List.reverse_eq_nil_iff.mp empty
    have blank : ∀ c ∈ text.dropWhile isBlank, isBlank c = true := by
      intro c member
      exact List.dropWhile_eq_nil_iff.mp nothing c (List.mem_reverse.mpr member)
    intro c member
    rw [← List.takeWhile_append_dropWhile (p := isBlank) (l := text)] at member
    rcases List.mem_append.mp member with front | back
    · exact List.mem_takeWhile_imp front
    · exact blank c back
  · intro blank
    have dropped : text.dropWhile isBlank = [] := List.dropWhile_eq_nil_iff.mpr blank
    rw [strip, dropped]
    rfl

structure Settled (text : List Char) : Prop where
  blank : opens isBlank text = false
  comment : ¬ ['-', '-'] <+: text

theorem settled_nil : Settled [] := ⟨rfl, by simp⟩

theorem settled_cons {c : Char} {rest : List Char} (solid : isBlank c = false) (hyphen : c ≠ '-') :
    Settled (c :: rest) := by
  refine ⟨solid, ?_⟩
  intro starts
  obtain ⟨more, same⟩ := starts
  cases same
  exact hyphen rfl

theorem outside_settled {text : List Char} (settled : Settled text) : Run.outside text = ⟨0, [], text⟩ := by
  cases text with
  | nil => rw [Run.outside]
  | cons c rest =>
    rw [Run.outside.eq_2]
    · have solid := settled.blank
      rw [opens_cons] at solid
      simp [solid]
    · rintro more rfl rfl
      exact settled.comment ⟨more, rfl⟩

theorem outside_blank {c : Char} (blank : isBlank c = true) (rest : List Char) :
    Run.outside (c :: rest) = (Run.outside rest).longer 1 := by
  rw [Run.outside.eq_2]
  · simp [blank]
  · rintro more same
    exact absurd same (blank_ne_hyphen blank)

private theorem inside_line {text : List Char} (line : '\n' ∉ text) (rest : List Char) :
    Run.inside (text ++ '\n' :: rest) = (text, (Run.outside rest).longer (text.length + 1)) := by
  induction text with
  | nil => simp [Run.inside]
  | cons c text ih =>
    obtain ⟨different, line⟩ := not_or.mp (List.mem_cons.not.mp line)
    rw [List.cons_append, Run.inside, ih line]
    have other : (c == '\n') = false := beq_false_of_ne (Ne.symm different)
    simp only [other, Run.longer, List.length_cons]
    rfl

private theorem inside_end {text : List Char} (line : '\n' ∉ text) :
    Run.inside text = (text, ⟨text.length, [], []⟩) := by
  induction text with
  | nil => rw [Run.inside]; rfl
  | cons c text ih =>
    obtain ⟨different, line⟩ := not_or.mp (List.mem_cons.not.mp line)
    rw [Run.inside, ih line]
    have other : (c == '\n') = false := beq_false_of_ne (Ne.symm different)
    simp only [other, Run.longer, List.length_cons]
    rfl

theorem outside_line {text : List Char} (line : '\n' ∉ text) (rest : List Char) :
    Run.outside ('-' :: '-' :: (text ++ '\n' :: rest)) =
      ⟨(Run.outside rest).length + (text.length + 3), text :: (Run.outside rest).comments, (Run.outside rest).rest⟩ := by
  rw [Run.outside, inside_line line]
  rfl

theorem outside_end {text : List Char} (line : '\n' ∉ text) :
    Run.outside ('-' :: '-' :: text) = ⟨text.length + 2, [text], []⟩ := by
  rw [Run.outside, inside_end line]

theorem outside_over {gap : List Char} {comments : List (List Char)} (skipped : Gap gap comments) (rest : List Char) :
    Run.outside (gap ++ rest) =
      ⟨gap.length + (Run.outside rest).length, comments ++ (Run.outside rest).comments, (Run.outside rest).rest⟩ := by
  induction skipped with
  | empty => simp
  | blank blank _ ih =>
    rw [List.cons_append, outside_blank blank, ih]
    simp only [Run.longer, List.length_cons]
    congr 1
    omega
  | comment line _ ih =>
    simp only [List.cons_append, List.append_assoc]
    rw [outside_line line, ih]
    simp only [List.length_cons, List.length_append]
    congr 1
    omega

theorem outside_gap {gap rest : List Char} {comments : List (List Char)} (skipped : Gap gap comments)
    (settled : Settled rest) : Run.outside (gap ++ rest) = ⟨gap.length, comments, rest⟩ := by
  rw [outside_over skipped, outside_settled settled, Nat.add_zero, List.append_nil]

theorem outside_ending {text : List Char} (ending : Ending text) : (Run.outside text).rest = [] := by
  cases ending with
  | closed gap =>
    have skipped := outside_gap gap settled_nil
    rw [List.append_nil] at skipped
    rw [skipped]
  | comment gap line => rw [outside_over gap, outside_end line]

private theorem Ending.afterBlank {c : Char} {text : List Char} (ending : Ending text) (blank : isBlank c = true) :
    Ending (c :: text) := by
  cases ending with
  | closed gap => exact .closed (.blank blank gap)
  | comment gap line => exact .comment (.blank blank gap) line

private theorem Ending.afterLine {line text : List Char} (ending : Ending text) (fresh : '\n' ∉ line) :
    Ending ('-' :: '-' :: (line ++ '\n' :: text)) := by
  cases ending with
  | closed gap => exact .closed (.comment fresh gap)
  | comment gap open' =>
    have whole := Ending.comment (.comment fresh gap) open'
    simpa only [List.cons_append, List.append_assoc] using whole

/-- The run that is skipped is a gap in front of something settled, or it is all of the text. -/
theorem outside_splits (text : List Char) :
    Settled (Run.outside text).rest ∧
      ((∃ gap, Gap gap (Run.outside text).comments ∧ gap.length = (Run.outside text).length ∧
          text = gap ++ (Run.outside text).rest) ∨
        (Ending text ∧ (Run.outside text).rest = [] ∧ (Run.outside text).length = text.length)) := by
  induction bound : text.length using Nat.strongRecOn generalizing text with
  | ind bound ih =>
    subst bound
    by_cases comment : ['-', '-'] <+: text
    · obtain ⟨more, rfl⟩ := comment
      by_cases newline : '\n' ∈ more
      · obtain ⟨line, rest, rfl, fresh⟩ := List.eq_append_cons_of_mem newline
        have shorter : rest.length < (['-', '-'] ++ (line ++ '\n' :: rest)).length := by
          simp only [List.length_append, List.length_cons]
          omega
        obtain ⟨settled, skipped⟩ := ih _ shorter rest rfl
        simp only [List.cons_append, List.nil_append, outside_line fresh]
        refine ⟨settled, ?_⟩
        rcases skipped with ⟨gap, skipped, size, split⟩ | ⟨ending, empty, size⟩
        · refine .inl ⟨'-' :: '-' :: (line ++ '\n' :: gap), .comment fresh skipped, ?_, ?_⟩
          · simp only [List.length_cons, List.length_append]
            omega
          · rw [List.cons_append, List.cons_append, List.append_assoc, List.cons_append, ← split]
        · refine .inr ⟨ending.afterLine fresh, empty, ?_⟩
          simp only [List.length_cons, List.length_append]
          omega
      · simp only [List.cons_append, List.nil_append]
        rw [outside_end newline]
        exact ⟨settled_nil, .inr ⟨.comment .empty newline, rfl, rfl⟩⟩
    · cases text with
      | nil =>
        rw [Run.outside]
        exact ⟨settled_nil, .inl ⟨[], .empty, rfl, rfl⟩⟩
      | cons c rest =>
        cases blank : isBlank c with
        | false =>
          have settled : Settled (c :: rest) := ⟨blank, comment⟩
          rw [outside_settled settled]
          exact ⟨settled, .inl ⟨[], .empty, rfl, rfl⟩⟩
        | true =>
          obtain ⟨settled, skipped⟩ := ih _ (Nat.lt_succ_self _) rest rfl
          rw [outside_blank blank]
          refine ⟨settled, ?_⟩
          rcases skipped with ⟨gap, skipped, size, split⟩ | ⟨ending, empty, size⟩
          · refine .inl ⟨c :: gap, .blank blank skipped, congrArg (· + 1) size, ?_⟩
            exact congrArg (c :: ·) split
          · exact .inr ⟨ending.afterBlank blank, empty, congrArg (· + 1) size⟩

mutual

/-- A text without its comments: each goes from two hyphens to the end of the line. -/
def uncommented : List Char → List Char
  | '-' :: '-' :: rest => afterComment rest
  | c :: rest => c :: uncommented rest
  | [] => []

def afterComment : List Char → List Char
  | c :: rest => if c == '\n' then '\n' :: uncommented rest else afterComment rest
  | [] => []

end

/-- A text without its comments and its white space. -/
def significant (text : List Char) : List Char := (uncommented text).filter (!isBlank ·)

def plain : List Char → Bool
  | [] => true
  | c :: rest => (c != '-' || rest.head?.any (· != '-')) && plain rest

private theorem uncommented_cons {c : Char} {rest : List Char} (apart : c ≠ '-' ∨ rest.head? ≠ some '-') :
    uncommented (c :: rest) = c :: uncommented rest := by
  rw [uncommented]
  rintro more rfl rfl
  simp at apart

theorem plain_append {first second : List Char} (left : plain first = true) (right : plain second = true) :
    plain (first ++ second) = true := by
  induction first with
  | nil => exact right
  | cons c rest ih =>
    simp only [plain, Bool.and_eq_true, List.cons_append] at left ⊢
    refine ⟨?_, ih left.2⟩
    cases rest with
    | nil =>
      have other : (c != '-') = true := by simpa using left.1
      simp [other]
    | cons next more => exact left.1

private theorem uncommented_plain {text : List Char} (solid : plain text = true) (rest : List Char) :
    uncommented (text ++ rest) = text ++ uncommented rest := by
  induction text with
  | nil => rfl
  | cons c text ih =>
    simp only [plain, Bool.and_eq_true, Bool.or_eq_true, bne_iff_ne] at solid
    rw [List.cons_append, uncommented_cons, ih solid.2]
    · rfl
    · refine solid.1.imp_right ?_
      intro follows
      cases text with
      | nil => simp at follows
      | cons next more => simpa using follows

private theorem afterComment_line {text : List Char} (line : '\n' ∉ text) (rest : List Char) :
    afterComment (text ++ '\n' :: rest) = '\n' :: uncommented rest := by
  induction text with
  | nil => rw [List.nil_append, afterComment]; rfl
  | cons c text ih =>
    obtain ⟨different, line⟩ := not_or.mp (List.mem_cons.not.mp line)
    have other : (c == '\n') = false := beq_false_of_ne (Ne.symm different)
    rw [List.cons_append, afterComment, other]
    exact ih line

private theorem afterComment_end {text : List Char} (line : '\n' ∉ text) : afterComment text = [] := by
  induction text with
  | nil => rw [afterComment]
  | cons c text ih =>
    obtain ⟨different, line⟩ := not_or.mp (List.mem_cons.not.mp line)
    have other : (c == '\n') = false := beq_false_of_ne (Ne.symm different)
    rw [afterComment, other]
    exact ih line

theorem significant_plain {text : List Char} (solid : plain text = true) (rest : List Char) :
    significant (text ++ rest) = text.filter (!isBlank ·) ++ significant rest := by
  simp only [significant, uncommented_plain solid, List.filter_append]

theorem significant_gap {gap : List Char} {comments : List (List Char)} (skipped : Gap gap comments)
    (rest : List Char) : significant (gap ++ rest) = significant rest := by
  induction skipped with
  | empty => rfl
  | blank blank _ ih =>
    simp only [significant, List.cons_append] at ih ⊢
    rw [uncommented_cons (.inl (blank_ne_hyphen blank)), List.filter_cons_of_neg (by simp [blank])]
    exact ih
  | comment line _ ih =>
    simp only [significant, List.cons_append, List.append_assoc] at ih ⊢
    rw [uncommented, afterComment_line line, List.filter_cons_of_neg (by decide)]
    exact ih

theorem significant_ending {text : List Char} (ending : Ending text) : significant text = [] := by
  cases ending with
  | closed gap =>
    have deleted := significant_gap gap []
    rwa [List.append_nil] at deleted
  | comment gap line =>
    rw [significant_gap gap, significant, uncommented, afterComment_end line]
    rfl

end TypeCatalog.Proofs
