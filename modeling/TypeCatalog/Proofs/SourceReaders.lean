import TypeCatalog.Proofs.SourceOutcomes

/-! What the readers accept: each reads lexemes that spell its value by the grammar, or stops with a justified fault.
The readers of types and items call each other, and their counts of steps never run out before the text does. -/

namespace TypeCatalog.Proofs
open Source Text

private theorem magnitude_lt_self (place : Magnitude) : place.lt place = false := by
  cases place with
  | bottom | top => rfl
  | ratio numerator denominator => simp [Magnitude.lt]

theorem bound_lt_self (bound : Bound) : bound.lt bound = false := by
  simp only [Bound.lt, Data.isLess]
  split
  next low high first second =>
    rw [first] at second
    cases second
    exact magnitude_lt_self low
  · rfl

private theorem illegible_overlong {text content : List Char} {bound : Bound} (denotes : Denotes text bound)
    (inside : text <:+: content) (long : legible text = false) : Overlong content := by
  cases denotes with
  | lowest | highest => cases long
  | @whole mark digits negative sign proper =>
    rw [legible_whole sign proper] at long
    refine ⟨digits, (List.suffix_append mark digits).isInfix.trans inside, ?_, proper.all⟩
    simpa using long
  | fraction sign proper tail =>
    rw [legible_fraction] at long
    cases long

section
variable {content : List Char} {size : Nat}

theorem spells_natural {digits : List Char} (proper : Digits digits) (inside : digits <:+: content) :
    Spells content size (fun number placed => placed = [] ∧ Numeral digits (number : Nat)) (Read.natural digits) := by
  intro cursor position _
  rw [natural_eq]
  split
  next short => exact .ok position ⟨[], ⟨rfl, proper, short, rfl⟩, .here cursor⟩
  next long => exact .error ⟨digits, inside, by omega, proper.all⟩

theorem spells_bound {text : List Char} {bound : Bound} (denotes : Denotes text bound) (inside : text <:+: content) :
    Spells content size (fun value placed => placed = [] ∧ value = bound ∧ legible text = true) (Read.bound text) := by
  intro cursor position _
  rw [bound_eq denotes]
  split
  next short => exact .ok position ⟨[], ⟨rfl, rfl, short⟩, .here cursor⟩
  next long => exact .error (illegible_overlong denotes inside (by simpa using long))

theorem spells_reject {α β : Type} {spelled : β → List Placed → Prop} {cause : Cause} {offset : Nat}
    {next : α → Read β} (justified : Justified content (.rejected cause offset)) :
    Spells content size spelled (Read.reject cause offset >>= next) := by
  intro cursor _ _
  rw [read_bind_error rfl]
  exact .error justified

theorem spells_range {token : Token (List Char × Option (List Char))}
    (stands : StandsAt content token.offset (.constraint token.value.1 token.value.2)) :
    Spells content size
      (fun range placed => placed = [] ∧ RangeSpelled range (.constraint token.value.1 token.value.2))
      (Read.range token) := by
  obtain ⟨⟨low, high⟩, offset, comment⟩ := token
  obtain ⟨⟨lower, denotes⟩, proper⟩ := stands.proper
  unfold Read.range
  cases high with
  | none =>
    refine (spells_bound denotes (stands.chars (by simp [Lexeme.parts]))).bind ?_
    rintro bound placed ⟨rfl, rfl, short⟩
    simp only [pure_bind, bound_lt_self, Bool.false_eq_true, if_false]
    exact .pure ⟨rfl, .single denotes short⟩
  | some high =>
    obtain ⟨upper, denoted⟩ := proper high rfl
    refine (spells_bound denotes (stands.chars (by simp [Lexeme.parts]))).bind ?_
    rintro bound placed ⟨rfl, rfl, short⟩
    refine (spells_bound denoted (stands.chars (by simp [Lexeme.parts]))).bind ?_
    rintro limit placed ⟨rfl, rfl, brief⟩
    by_cases order : limit.lt bound = true
    · simp only [order, if_true]
      obtain ⟨c, first, parenthesis⟩ := stands.first
      obtain rfl : c = '(' := by simpa [Lexeme.first] using parenthesis
      exact spells_reject ⟨stands.bound, first, order, low, high, stands, denotes, denoted⟩
    · simp only [order]
      exact .pure ⟨rfl, .pair denotes short denoted brief (by simpa using order)⟩

theorem spells_series : Spells content size SeriesSpelled Read.series := by
  refine (spells_attempt (.always reads_series)).bind ?_
  rintro _ _ (_ | @⟨⟨count, offset, comment⟩, stands⟩)
  · exact .pure .absent
  cases count with
  | none => exact .pure (.unbounded comment)
  | some digits =>
    have proper : Digits digits := stands.proper digits rfl
    refine (spells_natural proper (stands.chars (by simp [Lexeme.parts]))).bind ?_
    rintro number placed ⟨rfl, numeral⟩
    exact .pure (.counted comment numeral)

private def BasePlaced (type : String) (placed : List Placed) : Prop :=
  ∃ comment lexeme, placed = [⟨comment, lexeme⟩] ∧ BaseSpelled type lexeme

/-- A keyword that stands for a base type is tried before what else may stand there. -/
private theorem spells_keyword {scan : Scan Unit} {lexeme : Lexeme} {type : String} {others : Read String}
    (reads : Reads scan fun _ text rest => lexeme.Written text rest) (spelled : BaseSpelled type lexeme)
    (rest : Spells content size BasePlaced others) :
    Spells content size BasePlaced (do
      if (← Read.attempt scan).isSome then return type
      others) := by
  refine (spells_attempt (.always reads)).bind ?_
  rintro _ _ (_ | @⟨token, stands⟩)
  · exact rest
  · exact .pure ⟨token.comment, lexeme, rfl, spelled⟩

private theorem spells_baseType : Spells content size BasePlaced Read.baseType := by
  refine spells_keyword (reads_mark .anyType trivial rfl rfl) .any ?_
  refine spells_keyword (reads_fixed .enumerated rfl trivial rfl rfl) .enumerated ?_
  refine spells_keyword reads_bitString .bitString ?_
  refine spells_keyword reads_octetString .octetString ?_
  refine (spells_require (.always reads_typeNameLexeme) _).bind ?_
  rintro token _ ⟨rfl, stands⟩
  exact .pure ⟨token.comment, .typeName token.value, rfl, .name stands.proper⟩

private theorem spells_constraint :
    Spells content size (fun range placed => ∃ comment lexeme, placed = [⟨comment, lexeme⟩] ∧ RangeSpelled range lexeme)
      (Read.form .constraint Form.constraint >>= Read.range) := by
  refine (spells_require (.always reads_constraint) _).bind ?_
  rintro token _ ⟨rfl, stands⟩
  refine (spells_range stands).weaken ?_
  rintro range _ ⟨rfl, spelled⟩
  exact ⟨token.comment, _, rfl, spelled⟩

private theorem spells_size : Spells content size SizeSpelled Read.size := by
  refine (spells_attempt reads_size).bind ?_
  rintro _ _ (_ | @⟨⟨parenthesis, offset, word⟩, stands⟩)
  · exact .pure .absent
  simp only [← bind_assoc]
  refine spells_constraint.bind ?_
  rintro range _ ⟨comment, lexeme, rfl, spelled⟩
  cases parenthesis with
  | false => exact .pure (.bare word comment spelled)
  | true =>
    refine (spells_require (.always (reads_mark .parenthesis trivial rfl rfl)) _).bind ?_
    rintro token _ ⟨rfl, stands⟩
    exact .pure (.enclosed word comment token.comment spelled)

private theorem spells_valueRange : Spells content size LimitSpelled Read.valueRange := by
  refine (spells_attempt (.always reads_constraint)).bind ?_
  rintro _ _ (_ | @⟨token, stands⟩)
  · exact .pure .absent
  refine (spells_range stands).bind ?_
  rintro range _ ⟨rfl, spelled⟩
  exact .pure (.present token.comment spelled)

private theorem spells_number {scan : Scan (List Char)} {lexeme : List Char → Lexeme}
    (reads : Reads scan fun digits text rest => (lexeme digits).Written text rest)
    (proper : ∀ digits, (lexeme digits).Proper → Digits digits)
    (shows : ∀ digits, .chars digits ∈ (lexeme digits).parts) :
    Spells content size (NumberSpelled lexeme) (Read.number scan) := by
  refine (spells_attempt (.always reads)).bind ?_
  rintro _ _ (_ | @⟨token, stands⟩)
  · exact .pure .absent
  refine (spells_natural (proper _ stands.proper) (stands.chars (shows _))).bind ?_
  rintro number _ ⟨rfl, numeral⟩
  exact .pure (.present token.comment numeral)

private theorem spells_valueItem {kind : Kind} {name : List Char} {comment : Option String}
    (proper : isItemName name = true) (simple : kind.isSimple = true) :
    Spells content size (fun item placed => ItemSpelled kind item (⟨comment, .itemName name⟩ :: placed))
      (Read.valueItem (String.ofList name) comment) := by
  refine (spells_require (.always reads_itemNumber) _).bind ?_
  rintro token _ ⟨rfl, stands⟩
  refine (spells_natural stands.proper (stands.chars (by simp [Lexeme.parts]))).bind ?_
  rintro number _ ⟨rfl, numeral⟩
  exact .pure (.value comment token.comment proper simple numeral)

end

def afterItem (steps : Nat) (kind : Kind) (item : Item) : Read (List Item × Bool) := do
  if (← Read.attempt (Scan.literal [','])).isNone then return ([item], false)
  if kind != .sequence then
    if (← Read.attempt (Scan.literal ['.', '.', '.'])).isSome then return ([item], true)
  let (more, extensible) ← Read.items steps kind
  return (item :: more, extensible)

/-- The reader of one item, after its name. -/
def itemBody (steps : Nat) (kind : Kind) (name : String) (comment : Option String) : Read Item :=
  if kind.isSimple then Read.valueItem name comment else Read.typedItem steps name comment

theorem items_succ (steps : Nat) (kind : Kind) :
    Read.items (steps + 1) kind = (do
      let skipped ← Read.skip
      if !skipped.more then return ([], false)
      let name ← Read.form .itemName Form.itemName
      let item ← itemBody steps kind (String.ofList name.value) skipped.comment
      afterItem steps kind item) := by
  rw [Read.items]
  congr 1
  funext skipped
  congr 2
  funext name
  simp only [itemBody]
  split <;> rfl

section
variable {content : List Char} {steps size : Nat}

/-- Items that were read from a position; at the end of the text there may be none after a comma. -/
private def ItemsRead (kind : Kind) (cursor : Cursor) (list : List Item × Bool) (next : Cursor) : Prop :=
  (∃ placed, ItemsSpelled kind list.1 list.2 placed ∧ Path cursor placed next) ∨ next.rest = []

/-- What the readers that call each other accept with a count of steps: twice the length of the text is enough. -/
private structure Sound (content : List Char) (steps : Nat) : Prop where
  type : ∀ size, 2 * size ≤ steps → Spells content size ShapeSpelled (Read.type steps)
  itemList : ∀ size type, 2 * size < steps → Spells content size (ListSpelled type) (Read.itemList steps type)
  items : ∀ size kind cursor, 2 * size < steps → At content cursor → cursor.rest.length ≤ size →
    Outcome content (ItemsRead kind cursor) (Read.items steps kind cursor)
  typedItem : ∀ size kind name comment, 2 * size < steps → kind.isSimple = false → isItemName name = true →
    Spells content size (fun item placed => ItemSpelled kind item (⟨comment, .itemName name⟩ :: placed))
      (Read.typedItem steps (String.ofList name) comment)

private theorem sound_type (sound : Sound content steps) (enough : 2 * size ≤ steps + 1) :
    Spells content size ShapeSpelled (Read.type (steps + 1)) := by
  rw [Read.type]
  refine spells_series.bind ?_
  intro series before repeated
  refine spells_baseType.bind_within ?_
  rintro type _ ⟨comment, lexeme, rfl, base⟩ fits
  refine spells_size.bind ?_
  intro sized sizes size
  refine spells_valueRange.bind ?_
  intro range limits limited
  refine (sound.itemList _ type ?_).bind ?_
  · simp only [List.length_singleton] at fits ⊢
    omega
  intro list rest listed
  refine .pure ?_
  have spelled := ShapeSpelled.mk comment repeated base size limited listed
  simpa only [List.append_assoc, List.singleton_append, List.append_nil] using spelled

private theorem sound_typedItem (sound : Sound content steps) (enough : 2 * size < steps + 1) {kind : Kind}
    {name : List Char} {comment : Option String} (complex : kind.isSimple = false) (proper : isItemName name = true) :
    Spells content size (fun item placed => ItemSpelled kind item (⟨comment, .itemName name⟩ :: placed))
      (Read.typedItem (steps + 1) (String.ofList name) comment) := by
  rw [Read.typedItem]
  refine (spells_number reads_contextTag (fun _ => id) (by simp [Lexeme.parts])).bind ?_
  intro tag tags tagged
  refine (sound.type _ (by omega)).bind ?_
  intro shape placed shaped
  refine (spells_attempt (.always (reads_fixed .optional rfl trivial rfl rfl))).bind ?_
  have item {found : Bool} {after : List Placed} (ended : OptionalSpelled found after) :=
    ItemSpelled.typed comment proper complex tagged shaped ended
  rintro _ _ (_ | @⟨token, -⟩)
  · exact .pure (by simpa only [List.append_nil, Option.isSome_none] using item .absent)
  · exact .pure (by simpa only [List.append_nil, Option.isSome_some] using item (.present token.comment))

private theorem spells_itemBody (sound : Sound content steps) (enough : 2 * size < steps) {kind : Kind}
    {name : List Char} {comment : Option String} (proper : isItemName name = true) :
    Spells content size (fun item placed => ItemSpelled kind item (⟨comment, .itemName name⟩ :: placed))
      (itemBody steps kind (String.ofList name) comment) := by
  rw [itemBody]
  split
  next simple => exact spells_valueItem proper simple
  next complex => exact sound.typedItem size kind name comment enough (by simpa using complex) proper

private theorem sound_more (sound : Sound content steps) (enough : 2 * size < steps) {kind : Kind} {item : Item}
    {cursor position : Cursor} {placed : List Placed} {comma : Option String} (inside : At content position)
    (small : position.rest.length ≤ size) (spelled : ItemSpelled kind item placed)
    (path : Path cursor (placed ++ [⟨comma, .comma⟩]) position) :
    Outcome content (ItemsRead kind cursor) ((do
      let (more, extensible) ← Read.items steps kind
      return (item :: more, extensible) : Read (List Item × Bool)) position) := by
  refine (sound.items size kind position enough inside small).bind ?_
  rintro ⟨more, extensible⟩ next reached (⟨rest, others, onward⟩ | finished)
  · refine .ok reached (.inl ⟨_, .more comma spelled others, ?_⟩)
    have whole := path.append onward
    rwa [List.append_assoc] at whole
  · exact .ok reached (.inr finished)

private theorem sound_afterItem (sound : Sound content steps) (enough : 2 * size ≤ steps) {kind : Kind} {item : Item}
    {cursor position : Cursor} {placed : List Placed} (inside : At content position)
    (small : position.rest.length ≤ size) (spelled : ItemSpelled kind item placed)
    (path : Path cursor placed position) :
    Outcome content (ItemsRead kind cursor) (afterItem steps kind item position) := by
  refine (spells_attempt (.always (reads_mark .comma trivial rfl rfl)) position inside small).bind ?_
  rintro _ behind reached ⟨_, _ | @⟨comma, -⟩, onward⟩
  · obtain rfl := path_nil_iff.mp onward
    exact .ok reached (.inl ⟨placed, .last spelled, path⟩)
  have shorter := onward.shorter
  rw [List.length_singleton] at shorter
  have front := path.append onward
  have others := @sound_more content steps (size - 1) sound (by omega) kind item cursor behind placed comma.comment
    reached (by omega) spelled front
  by_cases closed : kind = .sequence
  · subst closed
    exact others
  rw [if_neg (by simp), if_pos (by simpa using closed)]
  refine (spells_attempt (.always (reads_mark .ellipsis trivial rfl rfl)) behind reached le_rfl).bind ?_
  rintro _ last finished ⟨_, _ | @⟨dots, -⟩, ending⟩
  · obtain rfl := path_nil_iff.mp ending
    exact others
  · refine .ok finished (.inl ⟨_, .ellipsis comma.comment dots.comment spelled closed, ?_⟩)
    have whole := front.append ending
    rwa [List.append_assoc] at whole

private theorem sound_items (sound : Sound content steps) (enough : 2 * size < steps + 1) (kind : Kind)
    {cursor : Cursor} (inside : At content cursor) (small : cursor.rest.length ≤ size) :
    Outcome content (ItemsRead kind cursor) (Read.items (steps + 1) kind cursor) := by
  rw [items_succ, skip_bind]
  by_cases more : cursor.skip.1.more = true
  · rw [if_neg (by simp [more])]
    refine (skipped_require (.always reads_itemNameLexeme) inside _).bind ?_
    rintro token position reached ⟨proper, step⟩
    have shorter := step.shorter
    refine (@spells_itemBody content steps (size - 1) sound (by omega) kind token.value _ proper position reached
      (by omega)).bind ?_
    rintro item behind after ⟨placed, spelled, path⟩
    have less := path.shorter
    exact @sound_afterItem content steps (size - 1) sound (by omega) kind item cursor behind _ after (by omega) spelled
      (.step step path)
  · rw [if_pos (by simp [more])]
    refine .ok inside.skip.1 (.inr ?_)
    simpa [Cursor.skip, Cursor.past] using more

private theorem opening_before {cursor next : Cursor} {comment : Option String} (inside : At content cursor)
    (step : Step cursor ⟨comment, .opening⟩ next) : 0 < next.offset ∧ content[next.offset - 1]? = some '\x7b' := by
  obtain ⟨before, whole, count⟩ := inside
  obtain ⟨gap, comments, text, -, -, written, split, offset⟩ := step
  have spread := written.spread
  rcases spread with _ | ⟨_, ⟨⟩⟩
  rw [List.length_append, List.length_singleton, List.length_nil] at offset
  refine ⟨by omega, ?_⟩
  have position : next.offset - 1 = (before ++ gap).length := by
    rw [List.length_append]
    omega
  rw [position, whole, split, ← List.append_assoc, List.getElem?_append_right le_rfl, Nat.sub_self]
  rfl

private theorem noItems_justified {position : Cursor} {type : String} (inside : At content position)
    (before : 0 < position.offset ∧ content[position.offset - 1]? = some '\x7b') :
    Justified content (.rejected (.noItems type) position.offset) :=
  ⟨inside.offset_le, before⟩

private theorem sound_itemList (sound : Sound content steps) (enough : 2 * size < steps + 1) (type : String) :
    Spells content size (ListSpelled type) (Read.itemList (steps + 1) type) := by
  intro cursor inside small
  rw [Read.itemList]
  refine (spells_attempt (.always (reads_mark .opening trivial rfl rfl)) cursor inside small).bind ?_
  rintro _ behind reached ⟨_, _ | @⟨opening, -⟩, onward⟩
  · exact .ok reached ⟨[], .absent type, onward⟩
  have shorter := onward.shorter
  rw [List.length_singleton] at shorter
  obtain ⟨_, step, ⟨⟩⟩ := path_cons_iff.mp onward
  have refused : ∀ {α : Type} {accepted : α → Cursor → Prop},
      Outcome content accepted (Read.rejectHere (.noItems type) behind) :=
    .error (noItems_justified reached (opening_before inside step))
  rw [if_neg (by simp)]
  cases known : Kind.ofTypeName? type with
  | none => exact refused
  | some kind =>
    by_cases structured : (kind.isSimple || kind.isComplex) = true
    · have kept : (!kind.isSimple && !kind.isComplex) = false := by
        simpa [imp_iff_not_or] using structured
      simp only [kept, Bool.false_eq_true, if_false]
      refine (sound.items (size - 1) kind behind (by omega) reached (by omega)).bind ?_
      rintro ⟨items, extensible⟩ last after list
      refine (spells_require (.always (reads_mark .closing trivial rfl rfl)) _ last after le_rfl).bind ?_
      rintro closing position finished ⟨_, ⟨rfl, -⟩, ending⟩
      rcases list with ⟨placed, spelled, path⟩ | empty
      · exact .ok finished ⟨_, .present opening.comment closing.comment known structured spelled,
          .step step (path.append ending)⟩
      · have less := ending.shorter
        simp [empty] at less
    · have dropped : (!kind.isSimple && !kind.isComplex) = true := by
        simpa using structured
      simp only [dropped, if_true]
      exact @Outcome.bind _ _ _ _ (fun _ _ => False) _ _ _ refused (fun _ _ _ impossible => impossible.elim)

/-- Every step of the readers keeps what they accept. -/
private theorem sound (content : List Char) (steps : Nat) : Sound content steps := by
  induction steps with
  | zero =>
    refine ⟨?_, by omega, by omega, by omega⟩
    intro size enough cursor inside small
    have empty : cursor.rest = [] := List.eq_nil_of_length_eq_zero (by omega)
    have faulty : Justified content (.rejected (.missing (.pattern .typeName)) cursor.offset) := by
      refine ⟨inside.offset_le, ?_⟩
      rw [Located, inside.drop, empty]
      exact settled_nil
    rw [Read.type]
    exact .error faulty
  | succ steps ih =>
    exact {
      type := fun size enough => sound_type ih enough
      itemList := fun size type enough => sound_itemList ih enough type
      items := fun size kind cursor enough inside small => sound_items ih enough kind inside small
      typedItem := fun size kind name comment enough complex proper => sound_typedItem ih enough complex proper }

theorem definition_outcome {cursor : Cursor} (inside : At content cursor)
    (enough : cursor.rest.length ≤ steps) :
    Outcome content (fun definition next => ∃ placed, DefinitionSpelled definition placed ∧ Path cursor placed next)
      (Read.definition (2 * steps) cursor.skip.1.comment cursor.skip.2) := by
  refine (skipped_require (.always reads_header) inside _).bind ?_
  rintro header position reached ⟨proper, step⟩
  have shorter := step.shorter
  have body : Spells content steps (fun (definition : Definition) placed =>
      DefinitionSpelled definition (⟨cursor.skip.1.comment, .header header.value⟩ :: placed)) (do
        let primitive ← Read.number Form.application
        let shape ← Read.type (2 * steps)
        return { shape with
          name := String.ofList header.value, primitive, comment := shape.comment.or cursor.skip.1.comment }) := by
    refine (spells_number reads_application (fun _ => id) (by simp [Lexeme.parts])).bind ?_
    intro primitive numbers numbered
    refine ((sound content _).type _ (by omega)).bind ?_
    intro shape placed shaped
    refine .pure ?_
    have spelled := DefinitionSpelled.mk cursor.skip.1.comment proper numbered shaped
    simpa only [List.append_nil] using spelled
  refine (body position reached (by omega)).weaken ?_
  rintro definition next ⟨placed, spelled, path⟩
  exact ⟨_, spelled, .step step path⟩

/-- The reader of definitions accepts lexemes that spell them, up to the end of the text. -/
theorem definitions_outcome {cursor : Cursor} (inside : At content cursor) (enough : cursor.rest.length < steps) :
    Outcome content (fun definitions _ => ∃ placed last,
        Spelled definitions placed ∧ Path cursor placed last ∧ Ending last.rest)
      (Read.definitions steps cursor) := by
  induction steps generalizing cursor with
  | zero => omega
  | succ steps ih =>
    rw [Read.definitions, skip_bind]
    by_cases more : cursor.skip.1.more = true
    · rw [if_neg (by simp [more])]
      refine (definition_outcome inside (by omega)).bind ?_
      rintro definition position reached ⟨placed, spelled, path⟩
      have shorter := path.shorter
      have some : 0 < placed.length := by
        cases spelled
        simp
      refine (ih reached (by omega)).bind ?_
      rintro definitions next finished ⟨rest, last, others, onward, ending⟩
      exact .ok finished ⟨_, last, .cons spelled others, path.append onward, ending⟩
    · rw [if_pos (by simp [more])]
      refine .ok inside.skip.1 ⟨[], cursor, .nil, .here cursor, ?_⟩
      have empty : (Run.outside cursor.rest).rest = [] := by simpa [Cursor.skip] using more
      rcases (outside_splits cursor.rest).2 with ⟨gap, skipped, -, whole⟩ | ⟨ending, -⟩
      · rw [whole, empty, List.append_nil]
        exact .closed skipped
      · exact ending

end

end TypeCatalog.Proofs
