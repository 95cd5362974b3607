import TypeCatalog.Proofs.SourceComments
import TypeCatalog.Proofs.SourceLayouts

/-! Every layout is read back. A reader that stands in front of lexemes that spell a value takes exactly these and gives
the value, whatever gaps are between them, as long as names are free. -/

namespace TypeCatalog.Proofs
open Source Text

section
variable {α : Type} {scan : Scan α} {cursor next last : Cursor} {placed : Placed} {allowed : Lexeme → Bool}

theorem attempt_none (missing : cursor.take? scan = none) : Read.attempt scan cursor = .ok (none, cursor) := by
  simp only [Read.attempt, missing]

theorem attempt_step {value : α} (step : Step cursor placed next)
    (takes : ∀ text, placed.lexeme.Written text next.rest → Takes scan value text next.rest) :
    ∃ offset, Read.attempt scan cursor = .ok (some ⟨value, offset, placed.comment⟩, next) := by
  obtain ⟨offset, taken⟩ := step.taken takes
  exact ⟨offset, by simp only [Read.attempt, taken]⟩

theorem form_step {value : α} (pattern : Pattern) (step : Step cursor placed next)
    (takes : ∀ text, placed.lexeme.Written text next.rest → Takes scan value text next.rest) :
    ∃ offset, Read.form pattern scan cursor = .ok (⟨value, offset, placed.comment⟩, next) := by
  obtain ⟨offset, taken⟩ := step.taken takes
  exact ⟨offset, by simp only [Read.form, Cursor.require, taken]⟩

theorem form_skipped {value : α} (pattern : Pattern) (step : Step cursor placed next)
    (takes : ∀ text, placed.lexeme.Written text next.rest → Takes scan value text next.rest) :
    ∃ offset, Read.form pattern scan cursor.skip.2 = .ok (⟨value, offset, none⟩, next) := by
  obtain ⟨offset, taken⟩ := step.taken takes
  exact ⟨offset, by simp only [Read.form, Cursor.require, skip_take, taken, Option.map_some]⟩

theorem mark_step {text : String} (step : Step cursor placed next) (parts : placed.lexeme.parts = [.chars text.toList]) :
    ∃ offset, Read.mark text cursor = .ok (⟨(), offset, placed.comment⟩, next) := by
  obtain ⟨offset, taken⟩ := step.taken fun _ written => takes_mark written parts
  exact ⟨offset, by simp only [Read.mark, Cursor.require, taken]⟩

theorem Step.skipped (step : Step cursor placed next) :
    cursor.skip.1.more = true ∧ cursor.skip.1.comment = placed.comment := by
  obtain ⟨size, comments, text, run, comment, written, -⟩ := step.run
  obtain ⟨c, more, rfl, -⟩ := written.front
  simp only [Cursor.skip, run, comment]
  exact ⟨rfl, rfl⟩

theorem Step.follows (step : Step cursor placed next) : Follows cursor.rest := by
  have comes : Next (fun _ => true) cursor := .lexeme step rfl
  exact comes.follows

theorem Path.follows {path : List Placed} (way : Path cursor path last) (comes : Next allowed last) :
    Follows cursor.rest := by
  cases way with
  | here => exact comes.follows
  | step first => exact first.follows

end

theorem natural_read {digits : List Char} {number : Int} (numeral : Numeral digits number) (cursor : Cursor) :
    ∃ n : Nat, number = n ∧ Read.natural digits cursor = .ok (n, cursor) := by
  refine ⟨digitsValue digits, numeral.value, ?_⟩
  rw [natural_eq, if_pos numeral.short]

theorem range_read {range : Range} {low : List Char} {high : Option (List Char)}
    (spelled : RangeSpelled range (.constraint low high)) (offset : Nat) (comment : Option String) (cursor : Cursor) :
    Read.range ⟨(low, high), offset, comment⟩ cursor = .ok (range, cursor) := by
  unfold Read.range
  cases spelled with
  | single denotes short =>
    rw [read_bind (by rw [bound_eq denotes, if_pos short])]
    simp only [pure_bind, bound_lt_self, Bool.false_eq_true, if_false]
    rfl
  | pair lower short upper brief order =>
    rw [read_bind (by rw [bound_eq lower, if_pos short])]
    dsimp only
    rw [read_bind (by rw [bound_eq upper, if_pos brief])]
    simp only [order, Bool.false_eq_true, if_false]
    rfl

section
variable {cursor next last : Cursor} {comment : Option String} {placed : List Placed}

private theorem number_read {scan : Scan (List Char)} {lexeme : List Char → Lexeme} {number : Option Int}
    (spelled : NumberSpelled lexeme number placed) (path : Path cursor placed next)
    (takes : ∀ digits text, (lexeme digits).Written text next.rest → Takes scan digits text next.rest)
    (missing : next.take? scan = none) : Read.number scan cursor = .ok (number, next) := by
  unfold Read.number
  cases spelled with
  | absent =>
    obtain rfl := path_nil_iff.mp path
    rw [read_bind (attempt_none missing)]
    rfl
  | @present digits number comment numeral =>
    obtain ⟨_, step, ⟨⟩⟩ := path_cons_iff.mp path
    obtain ⟨offset, read⟩ := attempt_step step (takes digits)
    obtain ⟨n, rfl, value⟩ := natural_read numeral next
    rw [read_bind read]
    dsimp only
    rw [read_bind value]
    rfl

private theorem series_read {series : Option Series} (spelled : SeriesSpelled series placed)
    (path : Path cursor placed next) (follows : Follows next.rest) (missing : next.take? Form.series = none) :
    Read.series cursor = .ok (series, next) := by
  unfold Read.series
  cases spelled with
  | absent =>
    obtain rfl := path_nil_iff.mp path
    rw [read_bind (attempt_none missing)]
    rfl
  | unbounded comment =>
    obtain ⟨_, step, ⟨⟩⟩ := path_cons_iff.mp path
    obtain ⟨offset, read⟩ := attempt_step step fun text written => takes_series written follows
    rw [read_bind read]
    rfl
  | counted comment numeral =>
    obtain ⟨_, step, ⟨⟩⟩ := path_cons_iff.mp path
    obtain ⟨offset, read⟩ := attempt_step step fun text written => takes_series written follows
    obtain ⟨n, rfl, value⟩ := natural_read numeral next
    rw [read_bind read]
    dsimp only
    rw [read_bind value]
    rfl

private theorem keyword_passed {scan : Scan Unit} {type : String} {others : Read String}
    (missing : cursor.take? scan = none) :
    (do
      if (← Read.attempt scan).isSome then return type
      others : Read String) cursor = others cursor := by
  rw [read_bind (attempt_none missing)]
  rfl

private theorem keyword_taken {scan : Scan Unit} {lexeme : Lexeme} {type : String} {others : Read String}
    (step : Step cursor ⟨comment, lexeme⟩ next)
    (takes : ∀ text, lexeme.Written text next.rest → Takes scan () text next.rest) :
    (do
      if (← Read.attempt scan).isSome then return type
      others : Read String) cursor = .ok (type, next) := by
  obtain ⟨offset, read⟩ := attempt_step step takes
  rw [read_bind read]
  rfl

private theorem first_apart {first second : Char} (different : (first == second) = false) (c : Char)
    (starts : (c == first) = true) : (c == second) = false := by
  rwa [eq_of_beq starts]

private theorem upper_apart {mark : Char} (other : mark.isUpper = false) (c : Char) (upper : c.isUpper = true) :
    (c == mark) = false := by
  refine beq_false_of_ne ?_
  rintro rfl
  simp [other] at upper

private theorem base_read {type : String} {lexeme : Lexeme} (spelled : BaseSpelled type lexeme)
    (step : Step cursor ⟨comment, lexeme⟩ next) (free : lexeme.isFree = true) (comes : Next afterBase next) :
    Read.baseType cursor = .ok (type, next) := by
  have follows := comes.follows
  have any : Recognises Form.anyType fun _ => .anyType := .always (reads_mark .anyType trivial rfl rfl)
  have enumerated : Recognises Form.enumerated fun _ => .enumerated :=
    .always (reads_fixed .enumerated rfl trivial rfl rfl)
  unfold Read.baseType
  cases spelled with
  | any => exact keyword_taken step fun text written => takes_mark written rfl
  | enumerated =>
    rw [keyword_passed (step.other any fun _ => first_apart rfl)]
    exact keyword_taken step fun text written => takes_fixed written follows rfl rfl
  | bitString =>
    rw [keyword_passed (step.other any fun _ => first_apart rfl),
      keyword_passed (step.other enumerated fun _ => first_apart rfl)]
    exact keyword_taken step fun text written => takes_words written follows rfl rfl rfl
  | octetString =>
    rw [keyword_passed (step.other any fun _ => first_apart rfl),
      keyword_passed (step.other enumerated fun _ => first_apart rfl),
      keyword_passed (step.other (.always reads_bitString) fun _ => first_apart rfl)]
    exact keyword_taken step fun text written => takes_words written follows rfl rfl rfl
  | name proper =>
    rw [keyword_passed (anyType_missing step comes), keyword_passed (enumerated_missing step free),
      keyword_passed (words_missing step comes reads_bitString rfl rfl (by decide)),
      keyword_passed (words_missing step comes reads_octetString rfl rfl (by decide))]
    obtain ⟨offset, read⟩ := form_step .typeName step fun text written =>
      takes_typeNameLexeme written follows
    rw [read_bind read]
    rfl

private theorem base_no_series {type type' : String} {lexeme : Lexeme} {list : Option Read.ItemList}
    {size range : Option Range} {sizes limits rest : List Placed} (spelled : BaseSpelled type lexeme)
    (step : Step cursor ⟨comment, lexeme⟩ next) (free : lexeme.isFree = true) (sized : SizeSpelled size sizes)
    (limited : LimitSpelled range limits) (listed : ListSpelled type' list rest)
    (path : Path next (sizes ++ (limits ++ rest)) last) (comes : Next afterShape last) :
    cursor.take? Form.series = none := by
  cases spelled with
  | any | enumerated | bitString | octetString => exact step.other (.always reads_series) fun _ => first_apart rfl
  | name => exact series_missing step free sized limited listed path comes

private theorem constraint_read {range : Range} {lexeme : Lexeme} (spelled : RangeSpelled range lexeme)
    (step : Step cursor ⟨comment, lexeme⟩ next) :
    (Read.form .constraint Form.constraint >>= Read.range) cursor = .ok (range, next) := by
  obtain ⟨low, high, rfl⟩ : ∃ low high, lexeme = .constraint low high := by
    cases spelled <;> exact ⟨_, _, rfl⟩
  obtain ⟨offset, read⟩ := form_step .constraint step fun text written => takes_constraint written
  rw [read_bind read]
  exact range_read spelled offset comment next

private theorem size_read {size : Option Range} (sized : SizeSpelled size placed) (path : Path cursor placed next)
    (comes : Next afterSize next) : Read.size cursor = .ok (size, next) := by
  unfold Read.size
  cases sized with
  | absent =>
    obtain rfl := path_nil_iff.mp path
    rw [read_bind (attempt_none comes.size_missing)]
    rfl
  | bare word constraint spelled =>
    obtain ⟨middle, first, onward⟩ := path_cons_iff.mp path
    obtain ⟨_, second, ⟨⟩⟩ := path_cons_iff.mp onward
    obtain ⟨offset, read⟩ := attempt_step first fun text written => takes_size written second.follows
    rw [read_bind read]
    simp only [← bind_assoc]
    rw [read_bind (constraint_read spelled second)]
    rfl
  | enclosed word constraint close spelled =>
    obtain ⟨middle, first, onward⟩ := path_cons_iff.mp path
    obtain ⟨behind, second, further⟩ := path_cons_iff.mp onward
    obtain ⟨_, third, ⟨⟩⟩ := path_cons_iff.mp further
    obtain ⟨offset, read⟩ := attempt_step first fun text written => takes_size written second.follows
    obtain ⟨position, closed⟩ := @mark_step _ _ _ ")" third rfl
    rw [read_bind read]
    simp only [← bind_assoc]
    rw [read_bind (constraint_read spelled second), if_pos trivial, read_bind closed]
    rfl

private theorem limit_read {range : Option Range} (limited : LimitSpelled range placed)
    (path : Path cursor placed next) (comes : Next afterLimit next) : Read.valueRange cursor = .ok (range, next) := by
  unfold Read.valueRange
  cases limited with
  | absent =>
    obtain rfl := path_nil_iff.mp path
    have missing : next.take? Form.constraint = none := by
      refine comes.missing (.always reads_constraint) ?_
      intro other value c fits
      cases other with
      | header => exact upper_apart rfl c
      | comma | closing | optional | opening => exact first_apart rfl c
      | _ => cases fits
    rw [read_bind (attempt_none missing)]
    rfl
  | @present range lexeme comment spelled =>
    obtain ⟨low, high, rfl⟩ : ∃ low high, lexeme = .constraint low high := by
      cases spelled <;> exact ⟨_, _, rfl⟩
    obtain ⟨_, step, ⟨⟩⟩ := path_cons_iff.mp path
    obtain ⟨offset, read⟩ := attempt_step step fun text written => takes_constraint written
    rw [read_bind read]
    dsimp only
    rw [read_bind (range_read spelled offset comment next)]
    rfl

end

private def opensShape : Lexeme → Bool
  | .series _ | .anyType | .enumerated | .bitString | .octetString | .typeName _ => true
  | _ => false

private def afterItems : Lexeme → Bool
  | .comma | .closing => true
  | _ => false

private theorem afterItems_shape (lexeme : Lexeme) (fits : afterItems lexeme = true) : afterShape lexeme = true := by
  cases lexeme <;> first | rfl | cases fits

section
variable {cursor next last : Cursor} {placed : List Placed}

private theorem next_shape {shape : Shape} (spelled : ShapeSpelled shape placed) (path : Path cursor placed next) :
    Next opensShape cursor := by
  obtain ⟨comment, repeated, base, sized, limited, listed⟩ := spelled
  have start {lexeme : Lexeme} {type : String} {rest : List Placed} {cursor : Cursor} (base : BaseSpelled type lexeme)
      (path : Path cursor (⟨comment, lexeme⟩ :: rest) next) : Next opensShape cursor := by
    obtain ⟨_, step, -⟩ := path_cons_iff.mp path
    cases base <;> exact .lexeme step rfl
  cases repeated with
  | absent => exact start base path
  | unbounded | counted =>
    obtain ⟨_, step, -⟩ := path_cons_iff.mp path
    exact .lexeme step rfl

/-- Where a type starts there is no number in brackets. -/
private theorem shape_no_bracket {scan : Scan (List Char)} {lexeme : List Char → Lexeme} (comes : Next opensShape cursor)
    (reads : Reads scan fun digits text rest => (lexeme digits).Written text rest)
    (bracket : ∀ digits, (lexeme digits).first = (· == '[')) : cursor.take? scan = none := by
  refine comes.missing (.always reads) ?_
  intro other digits c fits starts
  rw [bracket]
  cases other with
  | typeName => exact upper_apart rfl c starts
  | series | anyType | enumerated | bitString | octetString => exact first_apart rfl c starts
  | _ => cases fits

private theorem list_missing (comes : Next afterShape cursor) : cursor.take? (Scan.literal ['\x7b']) = none := by
  refine comes.missing (.always (reads_mark .opening trivial rfl rfl)) ?_
  intro other value c fits
  cases other with
  | header => exact upper_apart rfl c
  | comma | closing | optional => exact first_apart rfl c
  | _ => cases fits

private theorem optional_missing (comes : Next afterItems cursor) : cursor.take? Form.optional = none := by
  refine comes.missing (.always (reads_fixed .optional rfl trivial rfl rfl)) ?_
  intro other value c fits
  cases other with
  | comma | closing => exact first_apart rfl c
  | _ => cases fits

private theorem optional_read {isOptional : Bool} (spelled : OptionalSpelled isOptional placed)
    (path : Path cursor placed next) (comes : Next afterItems next) :
    ∃ found, Read.attempt Form.optional cursor = .ok (found, next) ∧ found.isSome = isOptional := by
  cases spelled with
  | absent =>
    obtain rfl := path_nil_iff.mp path
    exact ⟨none, attempt_none (optional_missing comes), rfl⟩
  | present comment =>
    obtain ⟨_, step, ⟨⟩⟩ := path_cons_iff.mp path
    obtain ⟨offset, read⟩ := attempt_step step fun text written => takes_fixed written comes.follows rfl rfl
    exact ⟨_, read, rfl⟩

private theorem next_optional {isOptional : Bool} (spelled : OptionalSpelled isOptional placed)
    (path : Path cursor placed next) (comes : Next afterItems next) : Next afterShape cursor := by
  cases spelled with
  | absent =>
    obtain rfl := path_nil_iff.mp path
    exact comes.widen afterItems_shape
  | present comment =>
    obtain ⟨_, step, -⟩ := path_cons_iff.mp path
    exact .lexeme step rfl

private theorem valueItem_read {digits : List Char} {number : Int} {name : String} {comment between : Option String}
    (numeral : Numeral digits number) (step : Step cursor ⟨between, .itemNumber digits⟩ next) :
    Read.valueItem name comment cursor = .ok ({ name, number := some number, comment }, next) := by
  obtain ⟨offset, read⟩ := form_step .itemNumber step fun text written => takes_itemNumber written
  obtain ⟨n, rfl, value⟩ := natural_read numeral next
  unfold Read.valueItem
  rw [read_bind read, read_bind value]
  rfl

private theorem items_first {kind : Kind} {item : Item} {steps : Nat} {position : Cursor}
    {result : Except Fault ((List Item × Bool) × Cursor)} (more : cursor.skip.1.more = true)
    (read : (do
      let name ← Read.form .itemName Form.itemName
      itemBody steps kind (String.ofList name.value) cursor.skip.1.comment : Read Item) cursor.skip.2 =
        .ok (item, position))
    (others : afterItem steps kind item position = result) : Read.items (steps + 1) kind cursor = result := by
  rw [items_succ, skip_bind, if_neg (by simp [more]),
    ← bind_assoc, read_bind read, others]

private theorem last_read {kind : Kind} {steps : Nat} {closing : Option String} (item : Item)
    (closed : Step cursor ⟨closing, .closing⟩ last) :
    afterItem steps kind item cursor = .ok (([item], false), cursor) := by
  have missing := closed.other (.always (reads_mark .comma trivial rfl rfl)) fun _ => first_apart rfl
  unfold afterItem
  rw [read_bind (attempt_none missing)]
  rfl

private theorem ellipsis_read {kind : Kind} {steps : Nat} {comma dots : Option String} {behind : Cursor} (item : Item)
    (first : Step cursor ⟨comma, .comma⟩ behind) (second : Step behind ⟨dots, .ellipsis⟩ next)
    (extensible : kind ≠ .sequence) : afterItem steps kind item cursor = .ok (([item], true), next) := by
  obtain ⟨_, separated⟩ := attempt_step first fun text written => @takes_mark [','] text _ _ written rfl
  obtain ⟨_, open'⟩ := attempt_step second fun text written => @takes_mark ['.', '.', '.'] text _ _ written rfl
  unfold afterItem
  rw [read_bind separated, if_neg (by simp), if_pos (by simpa using extensible), read_bind open']
  rfl

private theorem more_read {kind : Kind} {items : List Item} {extensible : Bool} {steps : Nat} {comma : Option String}
    {behind position : Cursor} {comment : Option String} {name : List Char} (item : Item)
    (first : Step cursor ⟨comma, .comma⟩ behind) (named : Step behind ⟨comment, .itemName name⟩ position)
    (others : Read.items steps kind behind = .ok ((items, extensible), next)) :
    afterItem steps kind item cursor = .ok ((item :: items, extensible), next) := by
  obtain ⟨_, separated⟩ := attempt_step first fun text written => @takes_mark [','] text _ _ written rfl
  have missing : behind.take? (Scan.literal ['.', '.', '.']) = none := by
    refine named.other (.always (reads_mark .ellipsis trivial rfl rfl)) ?_
    intro _ c lower
    refine beq_false_of_ne ?_
    rintro rfl
    cases lower
  unfold afterItem
  rw [read_bind separated, if_neg (by simp)]
  split
  · rw [read_bind (attempt_none missing), if_neg (by simp)]
    exact read_bind others
  · exact read_bind others

private theorem items_named {kind : Kind} {items : List Item} {extensible : Bool}
    (spelled : ItemsSpelled kind items extensible placed) (path : Path cursor placed next) :
    ∃ comment name position, Step cursor ⟨comment, .itemName name⟩ position := by
  have start {item : Item} {front : List Placed} {cursor next : Cursor} (first : ItemSpelled kind item front)
      (path : Path cursor front next) : ∃ comment name position, Step cursor ⟨comment, .itemName name⟩ position := by
    cases first with
    | value | typed =>
      obtain ⟨position, step, -⟩ := path_cons_iff.mp path
      exact ⟨_, _, position, step⟩
  cases spelled with
  | last first => exact start first path
  | ellipsis _ _ first | more _ first =>
    obtain ⟨_, front, -⟩ := Path.append_iff.mp path
    exact start first front

end

mutual

private theorem shape_read {shape : Shape} {placed : List Placed} {steps : Nat} {cursor next : Cursor}
    (spelled : ShapeSpelled shape placed) (free : AllFree placed) (path : Path cursor placed next)
    (comes : Next afterShape next) (enough : 2 * placed.length ≤ steps) :
    Read.type steps cursor = .ok (shape, next) := by
  match spelled with
  | @ShapeSpelled.mk _ _ _ _ _ lexeme _ _ _ _ comment repeated base sized limited listed =>
    obtain ⟨start, front, way⟩ := Path.append_iff.mp path
    obtain ⟨behind, step, after⟩ := path_cons_iff.mp way
    obtain ⟨middle, sizes, rest⟩ := Path.append_iff.mp after
    obtain ⟨position, limits, items⟩ := Path.append_iff.mp rest
    have unreserved : lexeme.isFree = true := free ⟨comment, lexeme⟩ (by simp)
    have limit := next_list listed items comes
    have size := next_limit limited listed rest comes
    have follow := next_size sized limited listed after comes
    have single := base_no_series base step unreserved sized limited listed after comes
    simp only [List.length_append, List.length_cons] at enough
    obtain ⟨steps, rfl⟩ : ∃ n, steps = n + 1 := ⟨steps - 1, by omega⟩
    have list : Read.itemList steps _ position = _ :=
      list_read listed (fun p member => free p (by simp [member])) items comes (by omega)
    rw [Read.type, read_bind (series_read repeated front step.follows single),
      read_bind (base_read base step unreserved follow), read_bind (size_read sized sizes size),
      read_bind (limit_read limited limits limit), read_bind list]
    rfl
termination_by structural spelled

private theorem list_read {type : String} {list : Option Read.ItemList} {placed : List Placed} {steps : Nat}
    {cursor next : Cursor} (spelled : ListSpelled type list placed) (free : AllFree placed)
    (path : Path cursor placed next) (comes : Next afterShape next) (enough : 2 * placed.length < steps) :
    Read.itemList steps type cursor = .ok (list, next) := by
  obtain ⟨steps, rfl⟩ : ∃ n, steps = n + 1 := ⟨steps - 1, by omega⟩
  rw [Read.itemList]
  match spelled with
  | .absent type =>
    obtain rfl := path_nil_iff.mp path
    rw [read_bind (attempt_none (list_missing comes))]
    rfl
  | @ListSpelled.present _ kind _ _ _ opening closing known structured spelled =>
    obtain ⟨start, first, way⟩ := path_cons_iff.mp path
    obtain ⟨position, inner, ending⟩ := Path.append_iff.mp way
    obtain ⟨_, final, ⟨⟩⟩ := path_cons_iff.mp ending
    obtain ⟨_, opened⟩ := attempt_step first fun text written => @takes_mark ['\x7b'] text _ _ written rfl
    obtain ⟨_, closed⟩ := @mark_step _ _ _ "\x7d" final rfl
    simp only [List.length_append, List.length_cons] at enough
    have items : Read.items steps kind start = _ :=
      items_read spelled (fun p member => free p (by simp [member])) inner final (by omega)
    have kept : (!kind.isSimple && !kind.isComplex) = false := by
      simpa [imp_iff_not_or] using structured
    rw [read_bind opened]
    simp only [known, kept, Option.isNone_some, Bool.false_eq_true, if_false]
    rw [read_bind items]
    dsimp only
    rw [read_bind closed]
    rfl
termination_by structural spelled

private theorem items_read {kind : Kind} {items : List Item} {extensible : Bool} {placed : List Placed} {steps : Nat}
    {cursor next last : Cursor} {closing : Option String} (spelled : ItemsSpelled kind items extensible placed)
    (free : AllFree placed) (path : Path cursor placed next) (closed : Step next ⟨closing, .closing⟩ last)
    (enough : 2 * placed.length < steps) : Read.items steps kind cursor = .ok ((items, extensible), next) := by
  obtain ⟨steps, rfl⟩ : ∃ n, steps = n + 1 := ⟨steps - 1, by omega⟩
  match spelled with
  | .last first =>
    obtain ⟨more, item⟩ := item_read first free path (.lexeme closed rfl) (by omega : _ ≤ steps + 1)
    exact items_first more item (last_read _ closed)
  | .ellipsis comma dots first extensible =>
    obtain ⟨position, front, after⟩ := Path.append_iff.mp path
    obtain ⟨behind, separator, ending⟩ := path_cons_iff.mp after
    obtain ⟨_, ellipsis, ⟨⟩⟩ := path_cons_iff.mp ending
    simp only [List.length_append, List.length_cons] at enough
    obtain ⟨more, item⟩ := item_read first (fun p member => free p (by simp [member])) front (.lexeme separator rfl)
      (by omega : _ ≤ steps + 1)
    exact items_first more item (ellipsis_read _ separator ellipsis extensible)
  | .more comma first others =>
    obtain ⟨position, front, after⟩ := Path.append_iff.mp path
    obtain ⟨behind, separator, onward⟩ := path_cons_iff.mp after
    simp only [List.length_append, List.length_cons] at enough
    obtain ⟨more, item⟩ := item_read first (fun p member => free p (by simp [member])) front (.lexeme separator rfl)
      (by omega : _ ≤ steps + 1)
    have rest : Read.items steps kind behind = _ :=
      items_read others (fun p member => free p (by simp [member])) onward closed (by omega)
    obtain ⟨_, _, _, named⟩ := items_named others onward
    exact items_first more item (more_read _ separator named rest)
termination_by structural spelled

private theorem item_read {kind : Kind} {item : Item} {placed : List Placed} {steps : Nat} {cursor next : Cursor}
    (spelled : ItemSpelled kind item placed) (free : AllFree placed) (path : Path cursor placed next)
    (comes : Next afterItems next) (enough : 2 * placed.length ≤ steps + 1) :
    cursor.skip.1.more = true ∧
      (do
        let name ← Read.form .itemName Form.itemName
        itemBody steps kind (String.ofList name.value) cursor.skip.1.comment : Read Item) cursor.skip.2 =
          .ok (item, next) := by
  match spelled with
  | .value comment between proper simple numeral =>
    obtain ⟨behind, first, way⟩ := path_cons_iff.mp path
    obtain ⟨_, second, ⟨⟩⟩ := path_cons_iff.mp way
    obtain ⟨more, skipped⟩ := first.skipped
    obtain ⟨_, named⟩ := form_skipped .itemName first fun text written => takes_itemNameLexeme written second.follows
    refine ⟨more, ?_⟩
    rw [read_bind named, itemBody, if_pos simple, skipped]
    exact valueItem_read numeral second
  | @ItemSpelled.typed _ _ _ _ _ _ _ _ comment proper complex tagged shaped ended =>
    obtain ⟨behind, first, way⟩ := path_cons_iff.mp path
    obtain ⟨start, front, after⟩ := Path.append_iff.mp way
    obtain ⟨position, inner, ending⟩ := Path.append_iff.mp after
    have follow := next_optional ended ending comes
    have opening := next_shape shaped inner
    obtain ⟨more, skipped⟩ := first.skipped
    obtain ⟨_, named⟩ := form_skipped .itemName first fun text written =>
      takes_itemNameLexeme written (front.follows opening)
    obtain ⟨found, isOptional, same⟩ := optional_read ended ending comes
    simp only [List.length_append, List.length_cons] at enough
    obtain ⟨steps, rfl⟩ : ∃ n, steps = n + 1 := ⟨steps - 1, by omega⟩
    have shape : Read.type steps start = _ :=
      shape_read shaped (fun p member => free p (by simp [member])) inner follow (by omega)
    refine ⟨more, ?_⟩
    rw [read_bind named, itemBody, if_neg (by simp [complex]), skipped, Read.typedItem,
      read_bind (number_read tagged front (fun _ _ => takes_contextTag) (shape_no_bracket opening reads_contextTag fun _ => rfl)),
      read_bind shape, read_bind isOptional, same]
    rfl
termination_by structural spelled

end

section
variable {cursor next last : Cursor} {placed : List Placed}

private theorem definition_read {definition : Definition} {steps : Nat} (spelled : DefinitionSpelled definition placed)
    (free : AllFree placed.tail) (path : Path cursor placed next) (comes : Next afterShape next)
    (enough : placed.length ≤ steps + 1) :
    cursor.skip.1.more = true ∧
      Read.definition (2 * steps) cursor.skip.1.comment cursor.skip.2 = .ok (definition, next) := by
  obtain ⟨comment, proper, numbered, shaped⟩ := spelled
  obtain ⟨behind, header, way⟩ := path_cons_iff.mp path
  obtain ⟨start, front, inner⟩ := Path.append_iff.mp way
  have opening := next_shape shaped inner
  obtain ⟨more, skipped⟩ := header.skipped
  obtain ⟨_, named⟩ := form_skipped .header header fun text written => takes_header written
  simp only [List.length_append, List.length_cons] at enough
  have shape : Read.type (2 * steps) start = _ :=
    shape_read shaped (fun p member => free p (by simp [member])) inner comes (by omega)
  refine ⟨more, ?_⟩
  unfold Read.definition
  rw [read_bind named, read_bind (number_read numbered front (fun _ _ => takes_application)
    (shape_no_bracket opening reads_application fun _ => rfl)), read_bind shape, skipped]
  rfl

private theorem next_definition {definitions : List Definition} (spelled : Spelled definitions placed)
    (free : AllFree placed) (path : Path cursor placed last) (ending : Ending last.rest) : Next afterShape cursor := by
  cases spelled with
  | nil =>
    obtain rfl := path_nil_iff.mp path
    exact .ending ending
  | cons first more =>
    obtain ⟨_, front, -⟩ := Path.append_iff.mp path
    cases first with
    | @mk name _ _ _ _ comment =>
      have unreserved : isFreeName name = true := free ⟨comment, .header name⟩ (by simp)
      obtain ⟨_, header, -⟩ := path_cons_iff.mp front
      exact .lexeme header unreserved

theorem allFree_tail {placed : List Placed} (free : AllFree placed) : AllFree placed.tail :=
  fun p member => free p (List.mem_of_mem_tail member)

/-- Definitions are read back from lexemes that spell them, up to the end of the text. Whatever the name in the first header
is, it does not come after a type. -/
theorem definitions_read {definitions : List Definition} {steps : Nat} (spelled : Spelled definitions placed)
    (free : AllFree placed.tail) (path : Path cursor placed last) (ending : Ending last.rest)
    (enough : placed.length < steps) : ∃ position, Read.definitions steps cursor = .ok (definitions, position) := by
  induction spelled generalizing cursor steps with
  | nil =>
    obtain ⟨steps, rfl⟩ : ∃ n, steps = n + 1 := ⟨steps - 1, by omega⟩
    obtain rfl := path_nil_iff.mp path
    have finished : last.skip.1.more = false := by
      simp [Cursor.skip, outside_ending ending]
    refine ⟨last.skip.2, ?_⟩
    rw [Read.definitions, skip_bind, if_pos (by simp [finished])]
    rfl
  | @cons _ _ placed _ first others ih =>
    obtain ⟨steps, rfl⟩ : ∃ n, steps = n + 1 := ⟨steps - 1, by omega⟩
    obtain ⟨behind, front, onward⟩ := Path.append_iff.mp path
    have some : 0 < placed.length := by
      cases first
      exact Nat.succ_pos _
    rw [List.tail_append_of_ne_nil (List.ne_nil_of_length_pos some)] at free
    obtain ⟨own, rest⟩ := List.forall_mem_append.mp free
    have comes := next_definition others rest onward ending
    rw [List.length_append] at enough
    obtain ⟨more, definition⟩ : _ ∧ Read.definition (2 * steps) _ _ = _ :=
      definition_read first own front comes (by omega)
    obtain ⟨position, read⟩ := ih (allFree_tail rest) onward (by omega : _ < steps)
    refine ⟨position, ?_⟩
    rw [Read.definitions, skip_bind, if_neg (by simp [more]),
      read_bind definition, read_bind read]
    rfl

end

/-- A text that is laid out as lexemes that spell definitions is read as these definitions, also if the name in the first
header is not free. -/
theorem headed_read {definitions : List Definition} {placed : List Placed} {text : String}
    (spelled : Spelled definitions placed) (free : AllFree placed.tail) (laid : Laid placed (unifyLineEnds text.toList))
    (usual : ∀ c ∈ unifyLineEnds text.toList, ¬ Foreign c) : parse text = .ok definitions := by
  have allowed : (unifyLineEnds text.toList).findIdx? (!isAllowed ·) = none := by
    refine List.findIdx?_eq_none_iff.mpr fun c member => ?_
    have kept := usual c member
    rw [← not_allowed] at kept
    simpa using kept
  obtain ⟨last, path, ending⟩ := laid
  have enough : placed.length < (unifyLineEnds text.toList).length + 1 := by
    have short := path.shorter
    change _ ≤ (unifyLineEnds text.toList).length at short
    omega
  obtain ⟨position, read⟩ := definitions_read spelled free path ending enough
  rw [parse_eq_ok, readContent, allowed]
  dsimp only
  rw [read]

theorem laid_read {definitions : List Definition} {placed : List Placed} {text : String}
    (spelled : Spelled definitions placed) (free : AllFree placed) (laid : Laid placed (unifyLineEnds text.toList))
    (usual : ∀ c ∈ unifyLineEnds text.toList, ¬ Foreign c) : parse text = .ok definitions :=
  headed_read spelled (allFree_tail free) laid usual

/-- Every layout of the lexemes of well formed definitions is read back: the definitions are the same, and their comments
are those of the layout. If their own comments can be written, there is a layout with these. -/
theorem wellFormed_readBack {definitions : List Definition}
    (wellFormed : ∀ definition ∈ definitions, DefinitionFits spellable definition) :
    (∀ (placed layout : List Placed) (text : String), Spelled definitions placed → SameLexemes placed layout →
      Laid layout (unifyLineEnds text.toList) → (∀ c ∈ unifyLineEnds text.toList, ¬ Foreign c) →
      ∃ result, parse text = .ok result ∧ Spelled result layout ∧
        result.map bareDefinition = definitions.map bareDefinition ∧ (layout = placed → result = definitions)) ∧
    ((∀ definition ∈ definitions, DefinitionFits writable definition) →
      ∃ (placed : List Placed) (text : String), Spelled definitions placed ∧
        Laid placed (unifyLineEnds text.toList) ∧ ∀ c ∈ unifyLineEnds text.toList, ¬ Foreign c) := by
  refine ⟨?_, layout_exists⟩
  intro placed layout text spelled same laid usual
  have free : AllFree layout := by
    intro p member
    have known : p.lexeme ∈ placed.map (·.lexeme) := same ▸ List.mem_map_of_mem member
    obtain ⟨other, listed, equal⟩ := List.mem_map.mp known
    rw [← equal]
    exact spelled_free wellFormed spelled other listed
  obtain ⟨result, again, bare⟩ := spelled.again same
  have read := laid_read again free laid usual
  refine ⟨result, read, again, bare, ?_⟩
  rintro rfl
  exact Except.ok.inj (read.symm.trans (laid_read spelled free laid usual))

private def lampState : Definition where
  name := "Lamp-State"
  type := "CHOICE"
  items := some [
    { name := "level", number := some 0, type := some "Unsigned", range := some ⟨.int 0, .highest⟩ },
    { name := "modes", optional := true, type := some "BitString", series := some (.counted 2)
      items := some [{ name := "night-mode", number := some 1 }] }]
  extensible := true
  comment := some "of one lamp"

private theorem lampState_fits (commented : List Char → Prop) (comment : commented "of one lamp".toList) :
    DefinitionFits { spellable with comment := commented } lampState := by
  let rules : Rules := { spellable with comment := commented }
  have number (n : Int) (natural : 0 ≤ n) (short : (natDigits n.natAbs).length ≤ digitLimit) :
      NumberFits rules (some n) := by
    rintro _ ⟨⟩
    exact ⟨natural, short⟩
  have level : ItemFits rules .choice
      { name := "level", number := some 0, type := some "Unsigned", range := some ⟨.int 0, .highest⟩ } := by
    refine @ItemFits.typed rules .choice "level" (some 0) false
      { type := "Unsigned", range := some ⟨.int 0, .highest⟩ } rfl (by decide) (number 0 (by decide) (by decide)) ?_
    refine ⟨by decide, rfl, nofun, nofun, ?_, .absent _, nofun⟩
    rintro _ ⟨⟩
    exact ⟨.int (by decide), .highest, .inl rfl⟩
  have mode : ItemFits rules .bitString { name := "night-mode", number := some 1 } :=
    .value rfl (by decide) (number 1 (by decide) (by decide)) nofun
  have modes : ItemFits rules .choice
      { name := "modes", optional := true, type := some "BitString", series := some (.counted 2)
        items := some [{ name := "night-mode", number := some 1 }] } := by
    refine @ItemFits.typed rules .choice "modes" none true
      { type := "BitString", series := some (.counted 2), items := some [{ name := "night-mode", number := some 1 }] }
      rfl (by decide) nofun ?_
    refine ⟨by decide, rfl, ?_, nofun, nofun, ?_, nofun⟩
    · rintro _ ⟨⟩
      exact ⟨by decide, (by decide : (natDigits 2).length ≤ digitLimit)⟩
    · exact .present rfl rfl (by simp) nofun (List.forall_mem_singleton.mpr mode)
  refine ⟨by decide, rfl, nofun, by decide, rfl, nofun, nofun, nofun, ?_, ?_⟩
  · refine .present rfl rfl (by simp) (fun _ => by decide) ?_
    exact List.forall_mem_cons.mpr ⟨level, List.forall_mem_singleton.mpr modes⟩
  · rintro _ ⟨⟩
    exact comment

theorem wellFormed_readBack_lampState : ∃ text, parse text = .ok [lampState] := by
  have clean : Clean "of one lamp".toList := ⟨by decide, by decide, by decide, by decide⟩
  obtain ⟨readBack, writes⟩ := wellFormed_readBack (List.forall_mem_singleton.mpr (lampState_fits _ trivial))
  obtain ⟨placed, text, spelled, laid, usual⟩ :=
    writes (List.forall_mem_singleton.mpr (lampState_fits _ ⟨clean, all_allowed.mp rfl⟩))
  obtain ⟨result, read, -, -, same⟩ := readBack placed placed text spelled rfl laid usual
  rw [same rfl] at read
  exact ⟨text, read⟩

end TypeCatalog.Proofs
