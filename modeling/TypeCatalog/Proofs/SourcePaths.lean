import TypeCatalog.Proofs.SourceSpellings

/-! Ways of a cursor through a text. A step goes over a gap and a lexeme, and a path is a sequence of steps. What a
cursor takes is a step, and every step is taken by a recogniser of its lexeme; so a text is laid out as a list of
lexemes exactly if a path leads through it. -/

namespace TypeCatalog.Proofs
open Source Text

/-- A lexeme and the comment in front of it. -/
structure Placed where
  comment : Option String
  lexeme : Lexeme

/-- A gap and a lexeme after it lie between two positions. -/
def Step (cursor : Cursor) (placed : Placed) (next : Cursor) : Prop :=
  ∃ gap comments text, Gap gap comments ∧ placed.comment = commentOf comments ∧
    placed.lexeme.Written text next.rest ∧ cursor.rest = gap ++ (text ++ next.rest) ∧
    next.offset = cursor.offset + gap.length + text.length

/-- Lexemes lie between two positions, in their order and with nothing but gaps between them. -/
inductive Path : Cursor → List Placed → Cursor → Prop where
  | here (cursor : Cursor) : Path cursor [] cursor
  | step {cursor middle next : Cursor} {placed : Placed} {more : List Placed} (first : Step cursor placed middle)
      (rest : Path middle more next) : Path cursor (placed :: more) next

/-- A text consists of lexemes with gaps between them, and ends after the last one or in a comment. -/
def Laid (placed : List Placed) (content : List Char) : Prop :=
  ∃ last, Path (.ofText content) placed last ∧ Ending last.rest

def At (content : List Char) (cursor : Cursor) : Prop :=
  ∃ before, content = before ++ cursor.rest ∧ before.length = cursor.offset

theorem Path.append_iff {cursor next : Cursor} {first second : List Placed} :
    Path cursor (first ++ second) next ↔ ∃ middle, Path cursor first middle ∧ Path middle second next := by
  induction first generalizing cursor with
  | nil =>
    constructor
    · exact fun path => ⟨cursor, .here cursor, path⟩
    · rintro ⟨_, ⟨⟩, path⟩
      exact path
  | cons placed first ih =>
    constructor
    · rintro (_ | ⟨step, rest⟩)
      obtain ⟨middle, front, back⟩ := ih.mp rest
      exact ⟨middle, .step step front, back⟩
    · rintro ⟨middle, _ | ⟨step, front⟩, back⟩
      exact .step step (ih.mpr ⟨middle, front, back⟩)

theorem Path.append {cursor middle next : Cursor} {first second : List Placed} (front : Path cursor first middle)
    (back : Path middle second next) : Path cursor (first ++ second) next :=
  Path.append_iff.mpr ⟨middle, front, back⟩

theorem Path.one {cursor next : Cursor} {placed : Placed} (step : Step cursor placed next) :
    Path cursor [placed] next :=
  .step step (.here next)

theorem path_cons_iff {cursor next : Cursor} {placed : Placed} {more : List Placed} :
    Path cursor (placed :: more) next ↔ ∃ middle, Step cursor placed middle ∧ Path middle more next := by
  constructor
  · rintro (_ | ⟨step, rest⟩)
    exact ⟨_, step, rest⟩
  · rintro ⟨middle, step, rest⟩
    exact .step step rest

theorem path_nil_iff {cursor next : Cursor} : Path cursor [] next ↔ next = cursor := by
  constructor
  · rintro ⟨⟩
    rfl
  · rintro rfl
    exact .here _

theorem Step.shorter {cursor next : Cursor} {placed : Placed} (step : Step cursor placed next) :
    next.rest.length < cursor.rest.length := by
  obtain ⟨gap, comments, text, -, -, written, split, -⟩ := step
  obtain ⟨c, more, rfl, -⟩ := written.front
  rw [split]
  simp only [List.length_append, List.length_cons]
  omega

theorem Path.shorter {cursor next : Cursor} {placed : List Placed} (path : Path cursor placed next) :
    next.rest.length + placed.length ≤ cursor.rest.length := by
  induction path with
  | here cursor => simp
  | step first rest ih =>
    have less := first.shorter
    simp only [List.length_cons]
    omega

theorem Step.at {content : List Char} {cursor next : Cursor} {placed : Placed} (inside : At content cursor)
    (step : Step cursor placed next) : At content next := by
  obtain ⟨before, split, size⟩ := inside
  obtain ⟨gap, comments, text, -, -, -, rest, offset⟩ := step
  refine ⟨before ++ gap ++ text, ?_, ?_⟩
  · rw [split, rest]
    simp only [List.append_assoc]
  · simp only [List.length_append]
    omega

theorem Path.significant {cursor next : Cursor} {placed : List Placed} (path : Path cursor placed next) :
    significant cursor.rest = placed.flatMap (·.lexeme.compact) ++ significant next.rest := by
  induction path with
  | here => rfl
  | step first _ ih =>
    obtain ⟨gap, comments, text, skipped, -, written, split, -⟩ := first
    rw [split, significant_gap skipped, significant_plain written.plain, written.compact, ih, List.flatMap_cons,
      List.append_assoc]

/-- Without comments and white space a text is the sequence of its lexemes. -/
theorem Laid.significant {placed : List Placed} {content : List Char} (laid : Laid placed content) :
    significant content = placed.flatMap (·.lexeme.compact) := by
  obtain ⟨last, path, ending⟩ := laid
  have deleted := path.significant
  rwa [significant_ending ending, List.append_nil] at deleted

/-- What a recogniser takes where there is no white space is a spelling of the lexeme of its value. -/
def Recognises {α : Type} (scan : Scan α) (lexeme : α → Lexeme) : Prop :=
  Reads scan fun value text rest => opens isBlank text = false → (lexeme value).Written text rest

section
variable {α : Type} {scan : Scan α} {cursor next : Cursor}

theorem Recognises.always {lexeme : α → Lexeme}
    (reads : Reads scan fun value text rest => (lexeme value).Written text rest) : Recognises scan lexeme :=
  reads.weaken fun _ _ _ written _ => written

theorem take_eq_some {token : Token α} :
    cursor.take? scan = some (token, next) ↔
      ∃ taken, scan (Run.outside cursor.rest).rest = some taken ∧
        token = ⟨taken.value, cursor.offset + (Run.outside cursor.rest).length, (Run.outside cursor.rest).comment⟩ ∧
        next = ⟨cursor.offset + (Run.outside cursor.rest).length + taken.lexeme.length, taken.rest⟩ := by
  simp only [Cursor.take?]
  constructor
  · intro accepted
    split at accepted
    · cases accepted
    next taken found =>
      cases accepted
      exact ⟨taken, found, rfl, rfl⟩
  · rintro ⟨taken, found, rfl, rfl⟩
    simp only [found]

theorem take_eq_none : cursor.take? scan = none ↔ scan (Run.outside cursor.rest).rest = none := by
  simp only [Cursor.take?]
  split
  next missing => simp [missing]
  next taken found => simp [found]

theorem take_step {lexeme : α → Lexeme} {token : Token α} (reads : Recognises scan lexeme)
    (accepted : cursor.take? scan = some (token, next)) : Step cursor ⟨token.comment, lexeme token.value⟩ next := by
  obtain ⟨taken, found, rfl, rfl⟩ := take_eq_some.mp accepted
  obtain ⟨split, written⟩ := reads _ taken found
  obtain ⟨settled, skipped⟩ := outside_splits cursor.rest
  have solid : opens isBlank taken.lexeme = false := by
    have blank := settled.blank
    rw [split] at blank
    cases same : taken.lexeme with
    | nil => rfl
    | cons c more => rwa [same] at blank
  rcases skipped with ⟨gap, skipped, size, whole⟩ | ⟨-, empty, -⟩
  · refine ⟨gap, _, taken.lexeme, skipped, rfl, written solid, ?_, ?_⟩
    · rw [← split]
      exact whole
    · rw [size]
  · obtain ⟨c, more, front, -⟩ := (written solid).front
    rw [empty, front] at split
    cases split

/-- Skipping first leaves a lexeme to be taken, but not the comment in front of it. -/
theorem skip_take : cursor.skip.2.take? scan =
    (cursor.take? scan).map fun (token, next) => ({ token with comment := none }, next) := by
  have settled := outside_settled (outside_splits cursor.rest).1
  simp only [Cursor.take?, Cursor.skip, Cursor.past, settled]
  split
  · rfl
  · simp only [Option.map_some, Nat.add_zero]
    rfl

/-- The run that a cursor skips in front of a step is the gap, and the lexeme comes after it. -/
theorem Step.run {placed : Placed} (step : Step cursor placed next) :
    ∃ size comments text, Run.outside cursor.rest = ⟨size, comments, text ++ next.rest⟩ ∧
      placed.comment = commentOf comments ∧ placed.lexeme.Written text next.rest ∧
      next.offset = cursor.offset + size + text.length := by
  obtain ⟨gap, comments, text, skipped, comment, written, split, offset⟩ := step
  obtain ⟨c, more, same, starts⟩ := written.front
  obtain ⟨solid, hyphen, -⟩ := first_solid starts
  have settled : Settled (text ++ next.rest) := by
    rw [same]
    exact settled_cons solid hyphen
  refine ⟨gap.length, comments, text, ?_, comment, written, offset⟩
  rw [split]
  exact outside_gap skipped settled

/-- A recogniser that takes the spellings of a lexeme takes them after a gap, with the comment of the gap. -/
theorem Step.taken {placed : Placed} {value : α} (step : Step cursor placed next)
    (takes : ∀ text, placed.lexeme.Written text next.rest → Takes scan value text next.rest) :
    ∃ offset, cursor.take? scan = some (⟨value, offset, placed.comment⟩, next) := by
  obtain ⟨size, comments, text, run, comment, written, offset⟩ := step.run
  refine ⟨cursor.offset + size, take_eq_some.mpr ⟨⟨value, text, next.rest⟩, ?_, ?_, ?_⟩⟩
  · rw [run]
    exact takes text written
  · rw [comment, run]
    rfl
  · rw [run, ← offset]

theorem Step.missing {placed : Placed} (step : Step cursor placed next)
    (refused : ∀ text, placed.lexeme.Written text next.rest → scan (text ++ next.rest) = none) :
    cursor.take? scan = none := by
  obtain ⟨size, comments, text, run, -, written, -⟩ := step.run
  rw [take_eq_none, run]
  exact refused text written

end

end TypeCatalog.Proofs
