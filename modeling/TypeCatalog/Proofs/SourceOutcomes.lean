import TypeCatalog.Proofs.SourceNumbers

/-! What a reader does with a text. It accepts lexemes that lie between two positions and gives what they spell, or it
stops with a fault that the text bears out. Both are closed under sequencing, so a reader gets its law part by part. -/

namespace TypeCatalog.Proofs
open Source Text

/-- A lexeme stands at an offset of a text. -/
structure StandsAt (content : List Char) (offset : Nat) (lexeme : Lexeme) : Prop where
  bound : offset ≤ content.length
  written : ∃ text rest, content.drop offset = text ++ rest ∧ lexeme.Written text rest

/-- A character other than a tab, a line feed and those from the space to the tilde. -/
def Foreign (c : Char) : Prop := c ≠ '\t' ∧ c ≠ '\n' ∧ ¬ (0x20 ≤ c.toNat ∧ c.toNat ≤ 0x7e)

instance (c : Char) : Decidable (Foreign c) :=
  inferInstanceAs (Decidable (c ≠ '\t' ∧ c ≠ '\n' ∧ ¬ (0x20 ≤ c.toNat ∧ c.toNat ≤ 0x7e)))

/-- What a cause says about the text at the position it is found at. -/
def Located (content : List Char) (offset : Nat) : Cause → Prop
  | .invalidCharacters => (∃ c, content[offset]? = some c ∧ Foreign c) ∧ ∀ c ∈ content.take offset, ¬ Foreign c
  | .missing _ => Settled (content.drop offset)
  | .invertedRange low high =>
    content[offset]? = some '(' ∧ high.lt low = true ∧
      ∃ lower upper, StandsAt content offset (.constraint lower (some upper)) ∧ Denotes lower low ∧ Denotes upper high
  | .noItems _ => 0 < offset ∧ content[offset - 1]? = some '\x7b'

/-- A text has a run of digits that is too long for an integer. -/
def Overlong (content : List Char) : Prop :=
  ∃ run, run <:+: content ∧ digitLimit < run.length ∧ ∀ c ∈ run, isDigit c = true

/-- A fault that the text bears out. -/
def Justified (content : List Char) : Fault → Prop
  | .rejected cause offset => offset ≤ content.length ∧ Located content offset cause
  | .tooManyDigits => Overlong content

/-- A reader accepts, and its value and the position it stops at are as promised, or it stops with a justified fault. -/
inductive Outcome {α : Type} (content : List Char) (accepted : α → Cursor → Prop) : Except Fault (α × Cursor) → Prop where
  | ok {value : α} {next : Cursor} (inside : At content next) (holds : accepted value next) :
      Outcome content accepted (.ok (value, next))
  | error {fault : Fault} (justified : Justified content fault) : Outcome content accepted (.error fault)

/-- From every position with at most the given number of characters left, a reader accepts lexemes that spell its
value. -/
def Spells {α : Type} (content : List Char) (size : Nat) (spelled : α → List Placed → Prop) (reader : Read α) : Prop :=
  ∀ cursor, At content cursor → cursor.rest.length ≤ size →
    Outcome content (fun value next => ∃ placed, spelled value placed ∧ Path cursor placed next) (reader cursor)

section
variable {α β : Type} {content : List Char} {size : Nat} {cursor : Cursor}

theorem Outcome.bind {middle : α → Cursor → Prop} {accepted : β → Cursor → Prop} {reader : Read α} {next : α → Read β}
    (first : Outcome content middle (reader cursor))
    (second : ∀ value position, At content position → middle value position →
      Outcome content accepted (next value position)) :
    Outcome content accepted ((reader >>= next) cursor) := by
  cases read : reader cursor with
  | error fault =>
    rw [read] at first
    rw [read_bind_error read]
    cases first with
    | error justified => exact .error justified
  | ok result =>
    obtain ⟨value, position⟩ := result
    rw [read] at first
    rw [read_bind read]
    cases first with
    | ok inside holds => exact second value position inside holds

theorem Outcome.weaken {accepted weaker : α → Cursor → Prop} {result : Except Fault (α × Cursor)}
    (outcome : Outcome content accepted result) (implies : ∀ value next, accepted value next → weaker value next) :
    Outcome content weaker result := by
  cases outcome with
  | ok inside holds => exact .ok inside (implies _ _ holds)
  | error justified => exact .error justified

theorem Spells.bind_within {middle : α → List Placed → Prop} {spelled : β → List Placed → Prop} {reader : Read α}
    {next : α → Read β} (first : Spells content size middle reader)
    (second : ∀ value placed, middle value placed → placed.length ≤ size →
      Spells content (size - placed.length) (fun result rest => spelled result (placed ++ rest)) (next value)) :
    Spells content size spelled (reader >>= next) := by
  intro cursor inside small
  refine (first cursor inside small).bind ?_
  rintro value position reached ⟨placed, holds, path⟩
  have shorter := path.shorter
  refine (second value placed holds (by omega) position reached (by omega)).weaken ?_
  rintro result last ⟨rest, finished, onward⟩
  exact ⟨placed ++ rest, finished, path.append onward⟩

theorem Spells.bind {middle : α → List Placed → Prop} {spelled : β → List Placed → Prop} {reader : Read α}
    {next : α → Read β} (first : Spells content size middle reader)
    (second : ∀ value placed, middle value placed →
      Spells content (size - placed.length) (fun result rest => spelled result (placed ++ rest)) (next value)) :
    Spells content size spelled (reader >>= next) :=
  first.bind_within fun value placed holds _ => second value placed holds

theorem Spells.pure {spelled : α → List Placed → Prop} {value : α} (holds : spelled value []) :
    Spells content size spelled (Pure.pure value : Read α) :=
  fun cursor inside _ => .ok inside ⟨[], holds, .here cursor⟩

theorem Spells.weaken {spelled weaker : α → List Placed → Prop} {reader : Read α}
    (spells : Spells content size spelled reader)
    (implies : ∀ value placed, spelled value placed → weaker value placed) : Spells content size weaker reader := by
  intro cursor inside small
  refine (spells cursor inside small).weaken ?_
  rintro value next ⟨placed, holds, path⟩
  exact ⟨placed, implies value placed holds, path⟩

theorem At.offset_le (inside : At content cursor) : cursor.offset ≤ content.length := by
  obtain ⟨before, split, count⟩ := inside
  rw [split, List.length_append]
  omega

theorem At.drop (inside : At content cursor) : content.drop cursor.offset = cursor.rest := by
  obtain ⟨before, split, count⟩ := inside
  rw [split, ← count, List.drop_left]

/-- Skipping leads to a position in front of neither white space nor a comment. -/
theorem At.skip (inside : At content cursor) : At content cursor.skip.2 ∧ Settled cursor.skip.2.rest := by
  obtain ⟨before, split, count⟩ := inside
  obtain ⟨settled, skipped⟩ := outside_splits cursor.rest
  refine ⟨?_, settled⟩
  rcases skipped with ⟨gap, -, length, whole⟩ | ⟨-, empty, length⟩
  · refine ⟨before ++ gap, ?_, ?_⟩
    · rw [split, List.append_assoc]
      exact congrArg (before ++ ·) whole
    · rw [List.length_append, count, length]
      rfl
  · refine ⟨content, ?_, ?_⟩
    · change content = content ++ (Run.outside cursor.rest).rest
      rw [empty, List.append_nil]
    · rw [split, List.length_append, count, ← length]
      rfl

end

private theorem spread_chars_inside {parts : List Part} {text run : List Char} (spread : Spread parts text)
    (member : .chars run ∈ parts) : run <:+: text := by
  induction spread with
  | nil => cases member
  | @chars parts tail chars rest ih =>
    rcases List.mem_cons.mp member with same | member
    · cases same
      exact (List.prefix_append _ _).isInfix
    · exact (ih member).trans (List.suffix_append _ _).isInfix
  | blanks all rest ih =>
    rcases List.mem_cons.mp member with same | member
    · cases same
    · exact (ih member).trans (List.suffix_append _ _).isInfix
  | someBlanks some all rest ih =>
    rcases List.mem_cons.mp member with same | member
    · cases same
    · exact (ih member).trans (List.suffix_append _ _).isInfix

theorem StandsAt.proper {content : List Char} {offset : Nat} {lexeme : Lexeme}
    (stands : StandsAt content offset lexeme) : lexeme.Proper := by
  obtain ⟨-, text, rest, -, written⟩ := stands
  exact written.proper

theorem StandsAt.chars {content : List Char} {offset : Nat} {lexeme : Lexeme}
    (stands : StandsAt content offset lexeme) {run : List Char} (member : .chars run ∈ lexeme.parts) :
    run <:+: content := by
  obtain ⟨-, text, rest, split, written⟩ := stands
  have front : text <:+: content.drop offset := by
    rw [split]
    exact (List.prefix_append text rest).isInfix
  exact (spread_chars_inside written.spread member).trans (front.trans (List.drop_suffix offset content).isInfix)

theorem StandsAt.first {content : List Char} {offset : Nat} {lexeme : Lexeme}
    (stands : StandsAt content offset lexeme) : ∃ c, content[offset]? = some c ∧ lexeme.first c = true := by
  obtain ⟨-, text, rest, split, written⟩ := stands
  obtain ⟨c, more, rfl, starts⟩ := written.front
  refine ⟨c, ?_, starts⟩
  rw [← List.head?_drop, split]
  rfl

section
variable {α : Type} {content : List Char} {size : Nat} {cursor next : Cursor} {scan : Scan α} {lexeme : α → Lexeme}

theorem take_stands {token : Token α} (reads : Recognises scan lexeme) (inside : At content cursor)
    (accepted : cursor.take? scan = some (token, next)) : StandsAt content token.offset (lexeme token.value) := by
  obtain ⟨size, comments, text, run, -, written, -⟩ := (take_step reads accepted).run
  obtain ⟨reached, -⟩ := inside.skip
  obtain ⟨taken, -, rfl, -⟩ := take_eq_some.mp accepted
  refine ⟨reached.offset_le, text, next.rest, reached.drop.trans ?_, written⟩
  change (Run.outside cursor.rest).rest = _
  rw [run]

/-- A form that may come next: if it does, one lexeme is read, and else nothing. -/
inductive Attempted (content : List Char) (lexeme : α → Lexeme) : Option (Token α) → List Placed → Prop where
  | absent : Attempted content lexeme none []
  | present {token : Token α} (stands : StandsAt content token.offset (lexeme token.value)) :
      Attempted content lexeme (some token) [⟨token.comment, lexeme token.value⟩]

def Required (content : List Char) (lexeme : α → Lexeme) (token : Token α) (placed : List Placed) : Prop :=
  placed = [⟨token.comment, lexeme token.value⟩] ∧ StandsAt content token.offset (lexeme token.value)

theorem spells_attempt (reads : Recognises scan lexeme) :
    Spells content size (Attempted content lexeme) (Read.attempt scan) := by
  intro cursor inside _
  simp only [Read.attempt]
  split
  next token next accepted =>
    have step := take_step reads accepted
    exact .ok (step.at inside) ⟨_, .present (take_stands reads inside accepted), .one step⟩
  next missing => exact .ok inside ⟨_, .absent, .here cursor⟩

theorem missing_justified (inside : At content cursor) (expected : Expected) :
    Justified content (.rejected (.missing expected) cursor.skip.2.offset) := by
  obtain ⟨reached, settled⟩ := inside.skip
  refine ⟨reached.offset_le, ?_⟩
  rw [Located, reached.drop]
  exact settled

theorem spells_require (reads : Recognises scan lexeme) (expected : Expected) :
    Spells content size (Required content lexeme) fun cursor => cursor.require expected scan := by
  intro cursor inside _
  simp only [Cursor.require]
  split
  next result accepted =>
    obtain ⟨token, next⟩ := result
    have step := take_step reads accepted
    exact .ok (step.at inside) ⟨_, ⟨rfl, take_stands reads inside accepted⟩, .one step⟩
  next missing => exact .error (missing_justified inside expected)

/-- A form that has to come next after what was skipped: the comment in front of it is the one that was skipped. -/
theorem skipped_require (reads : Recognises scan lexeme) (inside : At content cursor) (expected : Expected) :
    Outcome content (fun token next => (lexeme token.value).Proper ∧
        Step cursor ⟨cursor.skip.1.comment, lexeme token.value⟩ next)
      (cursor.skip.2.require expected scan) := by
  simp only [Cursor.require, skip_take]
  cases accepted : cursor.take? scan with
  | none => exact .error (missing_justified inside.skip.1 expected)
  | some result =>
    obtain ⟨token, next⟩ := result
    have step := take_step reads accepted
    have proper := (take_stands reads inside accepted).proper
    obtain ⟨taken, -, rfl, -⟩ := take_eq_some.mp accepted
    exact .ok (step.at inside) ⟨proper, step⟩

end

end TypeCatalog.Proofs
