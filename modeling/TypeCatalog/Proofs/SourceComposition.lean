import TypeCatalog.Proofs.SourceFrames
import TypeCatalog.Proofs.SourceVerdicts

/-! Texts in sequence. After a text that ends with a closing brace any other text can follow: the two are read as one
after the other, and an error of the second one is found behind the first. -/

namespace TypeCatalog.Proofs
open Source Text

/-- A text whose last character, white space aside, is a closing brace that is not part of a comment. -/
def EndsClosed (text : List Char) : Prop :=
  ∃ front blanks, text = front ++ '\x7d' :: blanks ∧ (∀ c ∈ blanks, isBlank c = true) ∧
    significant text = significant front ++ ['\x7d']

private theorem EndsClosed.shielded {text : List Char} (closed : EndsClosed text) : Shielded text := by
  obtain ⟨front, blanks, whole, white, last⟩ := closed
  obtain ⟨settled, ⟨gap, skipped, -, split⟩ | ⟨ending, -⟩⟩ := outside_splits text
  · have filled : (Run.outside text).rest ≠ [] := by
      intro empty
      have nothing : significant text = [] := by
        rw [split, significant_gap skipped, empty]
        rfl
      rw [nothing] at last
      simp at last
    rw [Shielded]
    generalize (Run.outside text).rest = rest at settled split filled
    rw [split] at whole
    rcases List.append_eq_append_iff.mp whole with ⟨between, -, same⟩ | ⟨between, -, same⟩
    · rw [same]
      simp
    · cases between with
      | nil =>
        rw [List.nil_append] at same
        simp [← same]
      | cons c between =>
        obtain ⟨-, same⟩ := List.cons.inj same
        obtain ⟨d, more, rfl⟩ := List.exists_cons_of_ne_nil filled
        have blank := white d (by simp [same])
        rw [show isBlank d = false from settled.blank] at blank
        cases blank
  · rw [significant_ending ending] at last
    simp at last

/-- A path goes over characters that count the same, whatever comes after them. -/
theorem Path.consumed {cursor next : Cursor} {placed : List Placed} (path : Path cursor placed next) :
    ∃ text, cursor.rest = text ++ next.rest ∧ next.offset = cursor.offset + text.length ∧
      ∀ tail, Proofs.significant (text ++ tail) = placed.flatMap (·.lexeme.compact) ++ Proofs.significant tail := by
  induction path with
  | here => exact ⟨[], rfl, rfl, fun _ => rfl⟩
  | step first _ ih =>
    obtain ⟨gap, comments, text, skipped, -, written, split, offset⟩ := first
    obtain ⟨more, rest, count, counted⟩ := ih
    refine ⟨gap ++ (text ++ more), ?_, ?_, ?_⟩
    · rw [split, rest]
      simp only [List.append_assoc]
    · simp only [List.length_append]
      omega
    · intro tail
      rw [List.append_assoc, List.append_assoc, significant_gap skipped, significant_plain written.plain, written.compact,
        counted, List.flatMap_cons, List.append_assoc]

theorem Path.proper {cursor next : Cursor} {placed : List Placed} (path : Path cursor placed next) :
    ∀ p ∈ placed, p.lexeme.Proper := by
  induction path with
  | here => simp
  | step first _ ih =>
    obtain ⟨_, _, _, -, -, written, -⟩ := first
    exact List.forall_mem_cons.mpr ⟨written.proper, ih⟩

/-- After some lexemes, the closing brace at the end of a text is still to come, or they have it and only white space is
left. -/
private theorem EndsClosed.after {cursor next : Cursor} {placed : List Placed} (closed : EndsClosed cursor.rest)
    (path : Path cursor placed next) :
    EndsClosed next.rest ∨
      ((∀ c ∈ next.rest, isBlank c = true) ∧ '\x7d' ∈ placed.flatMap (·.lexeme.compact)) := by
  obtain ⟨front, blanks, whole, white, last⟩ := closed
  obtain ⟨text, split, -, counted⟩ := path.consumed
  have counts : placed.flatMap (·.lexeme.compact) ++ significant next.rest = significant front ++ ['\x7d'] := by
    rw [← counted, ← split, last]
  have ahead {between : List Char} (same : front = text ++ between) (rest : next.rest = between ++ '\x7d' :: blanks) :
      EndsClosed next.rest := by
    refine ⟨between, blanks, rest, white, ?_⟩
    rw [same, counted, List.append_assoc] at counts
    exact List.append_cancel_left counts
  rw [split] at whole
  rcases List.append_eq_append_iff.mp whole with ⟨between, same, rest⟩ | ⟨between, same, rest⟩
  · exact .inl (ahead same rest)
  · cases between with
    | nil =>
      rw [List.append_nil] at same
      exact .inl (@ahead [] (by rw [same, List.append_nil]) rest.symm)
    | cons c between =>
      obtain ⟨rfl, remains⟩ := List.cons.inj rest
      have blank : ∀ c ∈ next.rest, isBlank c = true := by
        intro c member
        exact white c (by simp [remains, member])
      have nothing : significant next.rest = [] := by
        have dropped := significant_gap (blanks_gap blank) []
        rwa [List.append_nil] at dropped
      rw [nothing, List.append_nil] at counts
      exact .inr ⟨blank, by simp [counts]⟩

private theorem brace_free {lexeme : Lexeme} (proper : lexeme.Proper) (other : lexeme ≠ .closing) :
    '\x7d' ∉ lexeme.compact := by
  have name {text : List Char} (chars : ∀ c ∈ text, c.isAlphanum = true ∨ c = '-') : '\x7d' ∉ text := by
    intro member
    exact absurd (chars _ member) (by decide)
  have number {text : List Char} (digits : ∀ c ∈ text, isDigit c = true) : '\x7d' ∉ text := by
    intro member
    exact absurd (digits _ member) (by decide)
  have bound {text : List Char} {bound : Bound} (denotes : Denotes text bound) : '\x7d' ∉ text := by
    cases denotes with
    | lowest | highest => decide
    | whole sign digits => cases sign <;> simp [number digits.all]
    | fraction sign digits places => cases sign <;> simp [number digits.all, number places.all]
  cases lexeme with
  | header text | typeName text => simp [Lexeme.compact, Lexeme.parts, name (typeName_chars proper)]
  | itemName text => simp [Lexeme.compact, Lexeme.parts, name (itemName_chars proper)]
  | application text | itemNumber text | contextTag text =>
    have digits : Digits text := proper
    simp [Lexeme.compact, Lexeme.parts, number digits.all]
  | series count =>
    cases count with
    | none => decide
    | some text => simp [Lexeme.compact, Lexeme.parts, number (proper text rfl).all]
  | size parenthesis => cases parenthesis <;> decide
  | constraint low high =>
    obtain ⟨⟨_, lower⟩, upper⟩ := proper
    cases high with
    | none => simp [Lexeme.compact, Lexeme.parts, bound lower]
    | some text =>
      obtain ⟨_, upper⟩ := upper text rfl
      simp [Lexeme.compact, Lexeme.parts, bound lower, bound upper]
  | closing => contradiction
  | _ => decide

private theorem unclosed {definition : Definition} {placed : List Placed} (spelled : DefinitionSpelled definition placed)
    (none : definition.items = none) : ∀ p ∈ placed, p.lexeme ≠ .closing := by
  have constraint {range : Range} {lexeme : Lexeme} (spelled : RangeSpelled range lexeme) : lexeme ≠ .closing := by
    cases spelled <;> exact nofun
  obtain ⟨comment, proper, numbered, shaped⟩ := spelled
  obtain ⟨comment', repeated, base, sized, limited, listed⟩ := shaped
  cases listed with
  | present => cases none
  | absent =>
    simp only [List.forall_mem_cons, List.forall_mem_append]
    refine ⟨nofun, ?_, ?_, ?_, ?_, ?_, nofun⟩
    · cases numbered with
      | absent => exact nofun
      | present => exact List.forall_mem_singleton.mpr nofun
    · cases repeated with
      | absent => exact nofun
      | unbounded | counted => exact List.forall_mem_singleton.mpr nofun
    · cases base <;> exact nofun
    · cases sized with
      | absent => exact nofun
      | bare _ _ spelled => simp [constraint spelled]
      | enclosed _ _ _ spelled => simp [constraint spelled]
    · cases limited with
      | absent => exact nofun
      | present _ spelled => exact List.forall_mem_singleton.mpr (constraint spelled)

private theorem listed_of_brace {cursor next : Cursor} {definition : Definition} {placed : List Placed}
    (spelled : DefinitionSpelled definition placed) (path : Path cursor placed next)
    (brace : '\x7d' ∈ placed.flatMap (·.lexeme.compact)) : definition.items.isSome = true := by
  rw [Option.isSome_iff_ne_none]
  intro none
  obtain ⟨p, member, inside⟩ := List.mem_flatMap.mp brace
  exact brace_free (path.proper p member) (unclosed spelled none p member) inside

private theorem bind_ok {α β : Type} {reader : Read α} {next : α → Read β} {cursor last : Cursor} {result : β}
    (read : (reader >>= next) cursor = .ok (result, last)) :
    ∃ value position, reader cursor = .ok (value, position) ∧ next value position = .ok (result, last) := by
  cases first : reader cursor with
  | error fault =>
    rw [read_bind_error first] at read
    cases read
  | ok found =>
    obtain ⟨value, position⟩ := found
    rw [read_bind first] at read
    exact ⟨value, position, rfl, read⟩

private theorem outside_blanks {blanks : List Char} (all : ∀ c ∈ blanks, isBlank c = true) (more : List Char) :
    Run.outside (blanks ++ more) = (Run.outside more).longer blanks.length := by
  induction blanks with
  | nil => rfl
  | cons c rest ih =>
    obtain ⟨white, others⟩ := List.forall_mem_cons.mp all
    rw [List.cons_append, outside_blank white, ih others]
    rfl

private theorem definitions_blank {cursor : Cursor} (blank : ∀ c ∈ cursor.rest, isBlank c = true) (more : List Char)
    (steps : Nat) : Read.definitions (steps + 1) (moved 0 more cursor) =
      Read.definitions (steps + 1) ⟨cursor.offset + cursor.rest.length, more⟩ := by
  have skipped : (moved 0 more cursor).skip = (⟨cursor.offset + cursor.rest.length, more⟩ : Cursor).skip := by
    simp only [Cursor.skip, moved, outside_blanks blank, Cursor.past, Run.longer, Nat.add_zero, Nat.add_assoc,
      Nat.add_comm cursor.rest.length]
    rfl
  rw [Read.definitions, skip_bind, skip_bind, skipped]

private theorem definitions_join {steps greater : Nat} {cursor last : Cursor} {definitions : List Definition}
    (enough : cursor.rest.length < steps) (notFewer : steps ≤ greater)
    (read : Read.definitions steps cursor = .ok (definitions, last))
    (ends : EndsClosed cursor.rest ∨ ∀ c ∈ cursor.rest, isBlank c = true) (more : List Char) :
    ∃ left, greater ≤ left + cursor.rest.length ∧ Read.definitions greater (moved 0 more cursor) =
      (Read.definitions left ⟨cursor.offset + cursor.rest.length, more⟩).map fun (others, next) =>
        (definitions ++ others, next) := by
  induction steps generalizing greater cursor definitions with
  | zero => omega
  | succ steps ih =>
    obtain ⟨greater, rfl⟩ : ∃ fewer, greater = fewer + 1 := ⟨greater - 1, by omega⟩
    rw [Read.definitions, skip_bind] at read
    rcases ends with closed | blank
    · have shielded := closed.shielded
      have some : cursor.skip.1.more = true := by
        obtain ⟨c, rest, same⟩ := List.exists_cons_of_ne_nil (List.ne_nil_of_mem shielded)
        simp [Cursor.skip, same]
      rw [if_neg (by simp [some])] at read
      obtain ⟨definition, position, first, onward⟩ := bind_ok read
      obtain ⟨others, next, rest, finish⟩ := bind_ok onward
      cases finish
      obtain ⟨placed, spelled, path, shorter⟩ := definition_path (by omega) first
      have remains := closed.after path
      have safe : definition.items.isSome = true ∨ Safe more position := by
        rcases remains with closed' | ⟨-, brace⟩
        · exact .inr (.inr closed'.shielded)
        · exact .inl (listed_of_brace spelled path brace)
      have again : Read.definition (2 * greater) cursor.skip.1.comment (moved 0 more cursor.skip.2) =
          .ok (definition, moved 0 more position) := by
        have skipped := skip_length cursor
        have repeated := @repeats_definition 0 more steps greater cursor.skip.2 (by omega) (by omega) cursor.skip.1.comment
        rw [Repeats, first] at repeated
        exact (repeated.2 (.inr safe)).2
      obtain ⟨left, count, joined⟩ := @ih greater position others (by omega) (by omega) rest (remains.imp_right And.left)
      have offset : position.offset + position.rest.length = cursor.offset + cursor.rest.length := by
        obtain ⟨text, split, moved, -⟩ := path.consumed
        rw [split, moved, List.length_append]
        omega
      rw [offset] at joined
      refine ⟨left, by omega, ?_⟩
      rw [Read.definitions, skip_bind, skip_moved (.inr shielded), if_neg (by simp [some]), read_bind again]
      cases found : Read.definitions left ⟨cursor.offset + cursor.rest.length, more⟩ with
      | error fault =>
        rw [found] at joined
        exact read_bind_error joined
      | ok result =>
        rw [found] at joined
        exact read_bind joined
    · have empty : (Run.outside cursor.rest).rest = [] := by
        have run := outside_blanks blank []
        rw [List.append_nil] at run
        rw [run]
        rfl
      have none : cursor.skip.1.more = false := by simp [Cursor.skip, empty]
      rw [if_pos (by simp [none])] at read
      cases read
      refine ⟨greater + 1, by omega, ?_⟩
      rw [definitions_blank blank]
      cases Read.definitions (greater + 1) ⟨cursor.offset + cursor.rest.length, more⟩ <;> rfl

private theorem definitions_append {first : List Char} {definitions : List Definition} {last : Cursor}
    (closed : EndsClosed first) (read : Read.definitions (first.length + 1) (.ofText first) = .ok (definitions, last))
    (second : List Char) :
    Read.definitions ((first ++ second).length + 1) (.ofText (first ++ second)) =
      match Read.definitions (second.length + 1) (.ofText second) with
      | .ok (others, next) => .ok (definitions ++ others, moved first.length [] next)
      | .error fault => .error (behind first.length fault) := by
  have small : (Cursor.ofText first).rest.length < first.length + 1 := Nat.lt_succ_self _
  have notFewer : first.length + 1 ≤ (first ++ second).length + 1 := by simp
  have ends : EndsClosed (Cursor.ofText first).rest := closed
  obtain ⟨left, count, joined⟩ := definitions_join small notFewer read (.inl ends) second
  have enough : second.length + 1 ≤ left := by
    rw [List.length_append] at count
    change _ ≤ left + first.length at count
    omega
  have start : (⟨(Cursor.ofText first).offset + (Cursor.ofText first).rest.length, second⟩ : Cursor) =
      moved first.length [] (.ofText second) := by
    simp [moved, Cursor.ofText]
  have repeated : Repeats first.length [] (.ofText second) _ _ _ _ :=
    repeats_definitions (Nat.lt_succ_self second.length) enough
  rw [Repeats] at repeated
  change Read.definitions _ (.ofText (first ++ second)) = _ at joined
  rw [joined, start]
  cases others : Read.definitions (second.length + 1) (.ofText second) with
  | error fault =>
    rw [others] at repeated
    rw [repeated rfl]
    rfl
  | ok result =>
    rw [others] at repeated
    rw [(repeated.2 (.inl rfl)).2]
    rfl

theorem readContent_append {first second : List Char} {definitions : List Definition} (closed : EndsClosed first)
    (accepted : readContent first = .ok definitions) :
    readContent (first ++ second) = match readContent second with
      | .ok others => .ok (definitions ++ others)
      | .error fault => .error (behind first.length fault) := by
  rw [readContent] at accepted
  cases clean : first.findIdx? (!isAllowed ·) with
  | some offset => simp [clean] at accepted
  | none =>
    rw [clean] at accepted
    cases read : Read.definitions (first.length + 1) (.ofText first) with
    | error fault => simp [read] at accepted
    | ok result =>
      obtain ⟨found, last⟩ := result
      obtain rfl : found = definitions := by simpa [read] using accepted
      rw [readContent, readContent, List.findIdx?_append, clean, definitions_append closed read]
      cases second.findIdx? (!isAllowed ·) with
      | some offset => rfl
      | none => cases Read.definitions (second.length + 1) (.ofText second) <;> rfl

/-- After a text that ends with a closing brace another one is read as it is read alone. Its definitions come after
those of the first, and its errors are moved by the characters and the lines of the first. -/
theorem parse_append {first second : String} {definitions : List Definition} (firstLines : '\r' ∉ first.toList)
    (secondLines : '\r' ∉ second.toList) (closed : EndsClosed first.toList) (accepted : parse first = .ok definitions) :
    parse (first ++ second) = match parse second with
      | .ok others => .ok (definitions ++ others)
      | .error (.source error) => .error (.source {
          cause := error.cause
          offset := first.length + error.offset
          line := error.line + first.toList.count '\n' })
      | .error failure => .error failure := by
  have bothLines : '\r' ∉ first.toList ++ second.toList := by simp [firstLines, secondLines]
  rw [parse_eq_ok, unify_plain firstLines] at accepted
  simp only [parse, String.toList_append, unify_plain bothLines, unify_plain secondLines]
  rw [readContent_append closed accepted]
  cases readContent second.toList with
  | ok others => rfl
  | error fault =>
    cases fault with
    | tooManyDigits => rfl
    | rejected cause offset =>
      have lines : lineAt (first.toList ++ second.toList) (offset + first.length) =
          lineAt second.toList offset + first.toList.count '\n' := by
        rw [lineAt, lineAt, ← String.length_toList, Nat.add_comm offset, List.take_length_add_append, List.count_append]
        omega
      simp only [behind, Error.ofCause, String.length_toList, lines, Nat.add_comm first.length]

theorem parse_append_unfinished :
    parse ("A ::= SEQUENCE \x7b b Real \x7d\n" ++ "C ::=") =
      .error (.source { cause := .missing (.pattern .typeName), offset := 31, line := 2 }) := by
  have closed : EndsClosed "A ::= SEQUENCE \x7b b Real \x7d\n".toList :=
    ⟨"A ::= SEQUENCE \x7b b Real ".toList, ['\n'], by decide +kernel, List.forall_mem_singleton.mpr rfl, by decide +kernel⟩
  have accepted : parse "A ::= SEQUENCE \x7b b Real \x7d\n" =
      .ok [{ name := "A", type := "SEQUENCE", items := some [{ name := "b", type := some "Real" }] }] := by cbv
  have unfinished : parse "C ::=" = .error (.source { cause := .missing (.pattern .typeName), offset := 5, line := 1 }) := by
    cbv
  rw [parse_append (by decide) (by decide) closed accepted, unfinished]
  cbv

end TypeCatalog.Proofs
