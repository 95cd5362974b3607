import Mathlib
import TypeCatalog.Proofs.SourceReaders

/-! What a text is accepted as, and what is known of a text that is not accepted. Nothing in an accepted text is skipped,
invented, repeated or moved. Every error has a position inside the text and the line of that position, and the text at
the position shows the cause. Characters that the notation does not use are reported before anything else. -/

namespace TypeCatalog.Proofs
open Source

theorem not_allowed {c : Char} : isAllowed c = false ↔ Foreign c := by
  have space : ' ' ≤ c ↔ 0x20 ≤ c.toNat := UInt32.le_iff_toNat_le
  have tilde : c ≤ '~' ↔ c.toNat ≤ 0x7e := UInt32.le_iff_toNat_le
  simp only [isAllowed, Foreign, Bool.or_eq_false_iff, beq_eq_false_iff_ne, ne_eq, Bool.and_eq_false_iff,
    decide_eq_false_iff_not, space, tilde, and_assoc]
  tauto

theorem all_allowed {text : List Char} : text.all isAllowed = true ↔ ∀ c ∈ text, ¬ Foreign c := by
  simp only [List.all_eq_true, ← not_allowed, Bool.not_eq_false]

private theorem foreign_located {content : List Char} {offset : Nat}
    (first : content.findIdx? (!isAllowed ·) = some offset) :
    offset ≤ content.length ∧ Located content offset .invalidCharacters := by
  obtain ⟨inside, refused, before⟩ := List.findIdx?_eq_some_iff_getElem.mp first
  refine ⟨inside.le, ⟨content[offset], List.getElem?_eq_getElem inside, not_allowed.mp (by simpa using refused)⟩, ?_⟩
  intro c member foreign
  obtain ⟨index, small, rfl⟩ := List.mem_take_iff_getElem.mp member
  have allowed := before index (by omega)
  rw [not_allowed.mpr foreign] at allowed
  exact allowed rfl

/-- A text is accepted as definitions that it spells, or rejected with a fault that it bears out. -/
theorem readContent_outcome (content : List Char) :
    match readContent content with
    | .ok definitions => (∀ c ∈ content, ¬ Foreign c) ∧ ∃ placed, Spelled definitions placed ∧ Laid placed content
    | .error fault =>
      Justified content fault ∧ ((∃ offset, fault = .rejected .invalidCharacters offset) ↔ ∃ c ∈ content, Foreign c) := by
  rw [readContent]
  cases found : content.findIdx? (!isAllowed ·) with
  | some offset =>
    have located := foreign_located found
    obtain ⟨⟨c, here, foreign⟩, -⟩ := located.2
    refine ⟨located, ?_⟩
    exact iff_of_true ⟨offset, rfl⟩ ⟨c, List.mem_of_getElem? here, foreign⟩
  | none =>
    have allowed : ∀ c ∈ content, ¬ Foreign c := by
      intro c member foreign
      have refused := List.findIdx?_eq_none_iff.mp found c member
      rw [not_allowed.mpr foreign] at refused
      cases refused
    have outcome := @definitions_outcome content (content.length + 1) (.ofText content) ⟨[], rfl, rfl⟩
      (Nat.lt_succ_self _)
    cases read : Read.definitions (content.length + 1) (.ofText content) with
    | ok result =>
      rw [read] at outcome
      obtain ⟨-, placed, last, spelled, path, ending⟩ := outcome
      exact ⟨allowed, placed, spelled, last, path, ending⟩
    | error fault =>
      rw [read] at outcome
      cases outcome with
      | error justified =>
        refine ⟨justified, iff_of_false ?_ fun ⟨c, member, foreign⟩ => allowed c member foreign⟩
        rintro ⟨offset, rfl⟩
        obtain ⟨-, ⟨c, here, foreign⟩, -⟩ := justified
        exact allowed c (List.mem_of_getElem? here) foreign

theorem unify_plain {text : List Char} (plain : '\r' ∉ text) : unifyLineEnds text = text := by
  fun_induction unifyLineEnds text with
  | case1 | case2 => simp at plain
  | case3 c rest _ _ ih => rw [ih (List.not_mem_of_not_mem_cons plain)]
  | case4 => rfl

theorem parse_eq_ok {text : String} {definitions : List Definition} :
    parse text = .ok definitions ↔ readContent (unifyLineEnds text.toList) = .ok definitions := by
  simp only [parse]
  cases readContent (unifyLineEnds text.toList) with
  | ok found => simp
  | error fault => cases fault <;> simp

theorem accepted_laid {text : String} {definitions : List Definition} (accepted : parse text = .ok definitions) :
    ∃ placed, Spelled definitions placed ∧ Laid placed (unifyLineEnds text.toList) := by
  have outcome := readContent_outcome (unifyLineEnds text.toList)
  rw [parse_eq_ok.mp accepted] at outcome
  exact outcome.2

/-- An accepted text is laid out as lexemes that spell its definitions by the grammar. Without its comments and its
white space it is these lexemes, one after the other. -/
theorem accepted_spells {text : String} {definitions : List Definition} (accepted : parse text = .ok definitions) :
    ∃ placed, Spelled definitions placed ∧ Laid placed (unifyLineEnds text.toList) ∧
      significant (unifyLineEnds text.toList) = placed.flatMap (·.lexeme.compact) := by
  obtain ⟨placed, spelled, laid⟩ := accepted_laid accepted
  exact ⟨placed, spelled, laid, laid.significant⟩

theorem accepted_spells_alias :
    ∃ placed, Spelled [{ name := "A", type := "B-C", series := some .unbounded, comment := some "list" }] placed ∧
      Laid placed (unifyLineEnds "-- list\r\nA ::= SEQUENCE OF B-C".toList) ∧
      significant (unifyLineEnds "-- list\r\nA ::= SEQUENCE OF B-C".toList) = placed.flatMap (·.lexeme.compact) :=
  accepted_spells (by cbv)

/-- An error of a text: its offset is in the text, its line counts the line ends before it, and its cause is found
there. -/
structure Placement (content : List Char) (error : Source.Error) : Prop where
  offset : error.offset ≤ content.length
  line : error.line = 1 + (content.take error.offset).count '\n'
  cause : Located content error.offset error.cause

theorem parse_failed {text : String} {failure : Failure} (failed : parse text = .error failure) :
    (∃ error, failure = .source error) ∨ failure = .tooManyDigits ∧ Overlong (unifyLineEnds text.toList) := by
  have outcome := readContent_outcome (unifyLineEnds text.toList)
  rw [parse] at failed
  cases read : readContent (unifyLineEnds text.toList) with
  | ok definitions =>
    rw [read] at failed
    cases failed
  | error fault =>
    rw [read] at outcome failed
    cases fault with
    | tooManyDigits =>
      cases failed
      exact .inr ⟨rfl, outcome.1⟩
    | rejected cause offset =>
      cases failed
      exact .inl ⟨_, rfl⟩

/-- Every text is accepted, or has a run of too many digits, or is rejected at a position that shows the cause. It is
rejected for its characters exactly if one of them is foreign, whatever else is wrong with it. -/
theorem parse_classified (text : String) :
    (match parse text with
      | .ok _ => True
      | .error .tooManyDigits => Overlong (unifyLineEnds text.toList)
      | .error (.source error) => Placement (unifyLineEnds text.toList) error
      | .error _ => False) ∧
    ((∃ error, parse text = .error (.source error) ∧ error.cause = .invalidCharacters) ↔
      ∃ c ∈ unifyLineEnds text.toList, Foreign c) := by
  have outcome := readContent_outcome (unifyLineEnds text.toList)
  simp only [parse]
  cases read : readContent (unifyLineEnds text.toList) with
  | ok definitions =>
    rw [read] at outcome
    refine ⟨trivial, iff_of_false (by simp) ?_⟩
    rintro ⟨c, member, foreign⟩
    exact outcome.1 c member foreign
  | error fault =>
    rw [read] at outcome
    obtain ⟨justified, characters⟩ := outcome
    rw [← characters]
    cases fault with
    | tooManyDigits => exact ⟨justified, by simp⟩
    | rejected cause offset =>
      refine ⟨⟨justified.1, Nat.add_comm .., justified.2⟩, ?_⟩
      simp [Error.ofCause]

end TypeCatalog.Proofs
