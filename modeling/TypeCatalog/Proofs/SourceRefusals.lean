import TypeCatalog.Proofs.SourceGrammar

/-! Forms that are refused. An optional form is tried wherever it may stand, so where it does not stand nothing else may
look like it. Most forms are told apart by their first character. Keywords are told apart from names by their ends, and
this is where a few names would be taken for keywords: they are not free. -/

namespace TypeCatalog.Proofs
open Source Text

def clashes (word : String) (name : List Char) : Bool :=
  name == word.toList || (word.toList ++ ['-']).isPrefixOf name

/-- A name of a definition that cannot be taken for the rest of the type in front of it. -/
def isFreeName (name : List Char) : Bool := ["SIZE", "OF", "STRING"].all (!clashes · name)

/-- A name of a type that cannot be taken for a keyword. -/
def isFreeReference (name : List Char) : Bool := ["ENUMERATED", "SEQUENCEOF"].all (!clashes · name)

def Lexeme.isFree : Lexeme → Bool
  | .header name => isFreeName name
  | .typeName name => isFreeReference name
  | _ => true

def AllFree (placed : List Placed) : Prop := ∀ p ∈ placed, p.lexeme.isFree = true

def afterShape : Lexeme → Bool
  | .comma | .closing | .optional => true
  | .header name => isFreeName name
  | _ => false

def afterLimit : Lexeme → Bool
  | .opening => true
  | lexeme => afterShape lexeme

def afterSize : Lexeme → Bool
  | .constraint .. => true
  | lexeme => afterLimit lexeme

def afterBase : Lexeme → Bool
  | .size _ => true
  | lexeme => afterSize lexeme

theorem afterShape_limit (lexeme : Lexeme) (fits : afterShape lexeme = true) : afterLimit lexeme = true := by
  cases lexeme <;> first | exact fits | rfl

theorem afterLimit_size (lexeme : Lexeme) (fits : afterLimit lexeme = true) : afterSize lexeme = true := by
  cases lexeme <;> first | exact fits | rfl

theorem afterSize_base (lexeme : Lexeme) (fits : afterSize lexeme = true) : afterBase lexeme = true := by
  cases lexeme <;> first | exact fits | rfl

/-- The text ends at a cursor, or an allowed lexeme comes next. -/
inductive Next (allowed : Lexeme → Bool) (cursor : Cursor) : Prop where
  | ending (ending : Ending cursor.rest)
  | lexeme {placed : Placed} {next : Cursor} (step : Step cursor placed next) (allowed : allowed placed.lexeme = true)

section
variable {allowed wider : Lexeme → Bool} {cursor next : Cursor} {placed : Placed}

theorem Next.widen (comes : Next allowed cursor) (wide : ∀ lexeme, allowed lexeme = true → wider lexeme = true) :
    Next wider cursor := by
  cases comes with
  | ending ending => exact .ending ending
  | lexeme step fits => exact .lexeme step (wide _ fits)

theorem Step.front (step : Step cursor placed next) :
    ∃ c more, (Run.outside cursor.rest).rest = c :: more ∧ placed.lexeme.first c = true := by
  obtain ⟨size, comments, text, run, -, written, -⟩ := step.run
  obtain ⟨c, more, rfl, starts⟩ := written.front
  exact ⟨c, more ++ next.rest, by rw [run]; rfl, starts⟩

theorem Step.other {α : Type} {scan : Scan α} {lexeme : α → Lexeme} (step : Step cursor placed next)
    (reads : Recognises scan lexeme)
    (apart : ∀ value c, placed.lexeme.first c = true → (lexeme value).first c = false) : cursor.take? scan = none := by
  cases accepted : cursor.take? scan with
  | none => rfl
  | some result =>
    obtain ⟨c, more, front, starts⟩ := (take_step reads accepted).front
    obtain ⟨d, rest, other, begins⟩ := step.front
    cases front.symm.trans other
    rw [apart _ c begins] at starts
    cases starts

/-- A form is refused if no lexeme that may come next starts like it. -/
theorem Next.missing {α : Type} {scan : Scan α} {lexeme : α → Lexeme} (comes : Next allowed cursor)
    (reads : Recognises scan lexeme)
    (apart : ∀ other value c, allowed other = true → other.first c = true → (lexeme value).first c = false) :
    cursor.take? scan = none := by
  cases comes with
  | lexeme step fits => exact step.other reads fun value c => apart _ value c fits
  | ending ending =>
    cases accepted : cursor.take? scan with
    | none => rfl
    | some result =>
      obtain ⟨c, more, front, -⟩ := (take_step reads accepted).front
      rw [outside_ending ending] at front
      cases front

private theorem follows_cons {c : Char} {rest : List Char} (letters : isWord c = true → c.isAlphanum = true)
    (hyphen : c = '-' → ∀ d more, rest = d :: more → d = '-') : Follows (c :: rest) := by
  constructor
  · intro other
    cases member : isWord c with
    | false => simp [endsWord, member]
    | true =>
      rw [opens_cons, letters member] at other
      cases other
  · intro d more same
    obtain ⟨first, others⟩ := List.cons.inj same
    exact hyphen first d more others

private theorem follows_comment (rest : List Char) : Follows ('-' :: '-' :: rest) := by
  refine follows_cons (by decide) ?_
  intro _ d more same
  exact (List.cons.inj same).1.symm

private theorem Gap.follows {gap rest : List Char} {comments : List (List Char)} (skipped : Gap gap comments)
    (after : Follows rest) : Follows (gap ++ rest) := by
  cases skipped with
  | empty => exact after
  | blank white =>
    exact follows_cons (by simp [blank_not_word white]) fun same => absurd same (blank_ne_hyphen white)
  | comment => exact follows_comment _

theorem Next.follows (comes : Next allowed cursor) : Follows cursor.rest := by
  cases comes with
  | ending ending =>
    generalize cursor.rest = rest at ending
    cases ending with
    | closed skipped =>
      have nothing : Follows [] := ⟨fun _ => rfl, nofun⟩
      simpa using skipped.follows nothing
    | comment skipped => exact skipped.follows (follows_comment _)
  | lexeme step =>
    obtain ⟨gap, comments, text, skipped, -, written, split, -⟩ := step
    obtain ⟨c, more, rfl, starts⟩ := written.front
    obtain ⟨-, hyphen, letters⟩ := first_solid starts
    rw [split]
    exact skipped.follows (follows_cons letters fun same => absurd same hyphen)

end

/-- A text that starts with a name and with a word: the name is the word, or goes on after it with a hyphen. -/
theorem name_word {name rest word tail : List Char} (proper : isTypeName name = true)
    (ends : opens Char.isAlphanum rest = false) (letters : word.all Char.isAlphanum = true)
    (stops : opens Char.isAlphanum tail = false) (same : name ++ rest = word ++ tail) :
    (name = word ∧ rest = tail) ∨ ∃ more, name = word ++ '-' :: more ∧ tail = '-' :: (more ++ rest) := by
  rcases List.append_eq_append_iff.mp same with ⟨more, rfl, rfl⟩ | ⟨more, rfl, rfl⟩
  · cases more with
    | nil => exact .inl ⟨(List.append_nil name).symm, rfl⟩
    | cons c more =>
      have letter : c.isAlphanum = true := List.all_eq_true.mp letters c (by simp)
      rw [List.cons_append, opens_cons, letter] at ends
      cases ends
  · cases more with
    | nil => exact .inl ⟨List.append_nil word, rfl⟩
    | cons c more =>
      rcases typeName_chars proper c (by simp) with letter | rfl
      · rw [List.cons_append, opens_cons, letter] at stops
        cases stops
      · exact .inr ⟨more, rfl, rfl⟩

private theorem clashes_of_word {word : String} {name rest tail : List Char} (proper : isTypeName name = true)
    (ends : opens Char.isAlphanum rest = false) (letters : word.toList.all Char.isAlphanum = true)
    (stops : opens Char.isAlphanum tail = false) (same : name ++ rest = word.toList ++ tail) :
    clashes word name = true := by
  rcases name_word proper ends letters stops same with ⟨rfl, -⟩ | ⟨more, rfl, -⟩
  · simp [clashes]
  · simp [clashes]

/-- A name reads like a word, and what comes after the word cannot belong to a name. -/
private theorem name_ends {name rest word tail : List Char} (proper : isTypeName name = true)
    (ends : opens Char.isAlphanum rest = false) (letters : word.all Char.isAlphanum = true)
    (stops : opens Char.isAlphanum tail = false) (hyphen : opens (· == '-') tail = false)
    (same : name ++ rest = word ++ tail) : rest = tail := by
  rcases name_word proper ends letters stops same with ⟨-, after⟩ | ⟨more, -, rfl⟩
  · exact after
  · cases hyphen

private theorem blanks_end {space : List Char} (some : space ≠ []) (blank : ∀ c ∈ space, isBlank c = true)
    (rest : List Char) :
    opens Char.isAlphanum (space ++ rest) = false ∧ opens (· == '-') (space ++ rest) = false := by
  obtain ⟨c, more, rfl⟩ := List.exists_cons_of_ne_nil some
  have white := blank c List.mem_cons_self
  exact ⟨blank_not_alphanum white, beq_false_of_ne (blank_ne_hyphen white)⟩

private theorem header_no_word {word : String} {name text rest tail : List Char}
    (written : (Lexeme.header name).Written text rest) (free : isFreeName name = true)
    (listed : word ∈ ["SIZE", "OF", "STRING"]) (stops : opens Char.isAlphanum tail = false)
    (same : text ++ rest = word.toList ++ tail) : False := by
  have letters : ∀ word ∈ ["SIZE", "OF", "STRING"], word.toList.all Char.isAlphanum = true := by decide
  have spread := written.spread
  simp only [Lexeme.parts, spread_chars, spread_blanks, spread_nil] at spread
  obtain ⟨_, rfl, space, _, rfl, blank, _, rfl, rfl⟩ := spread
  simp only [List.append_assoc] at same
  have clash : clashes word name = true := by
    refine clashes_of_word written.proper ?_ (letters word listed) stops same
    exact opens_after_blanks (fun _ => blank_not_alphanum) blank rfl
  have other := List.all_eq_true.mp free word listed
  rw [clash] at other
  cases other

private theorem first_of {lexeme : Lexeme} {text rest more : List Char} {c : Char} (written : lexeme.Written text rest)
    (same : text ++ rest = c :: more) : lexeme.first c = true := by
  obtain ⟨d, others, rfl, starts⟩ := written.front
  obtain ⟨rfl, -⟩ := List.cons.inj same
  exact starts

section
variable {allowed : Lexeme → Bool} {cursor next last : Cursor} {comment : Option String} {space text tail : List Char}

private theorem Step.after_blanks {placed : Placed} {c : Char} (step : Step cursor placed next)
    (blank : ∀ c ∈ space, isBlank c = true) (solid : isBlank c = false) (hyphen : c ≠ '-')
    (split : cursor.rest = space ++ c :: tail) :
    ∃ text, placed.lexeme.Written text next.rest ∧ text ++ next.rest = c :: tail := by
  obtain ⟨size, comments, text, run, -, written, -⟩ := step.run
  have looked := outside_gap (blanks_gap blank) (settled_cons solid hyphen : Settled (c :: tail))
  rw [← split, run] at looked
  exact ⟨text, written, congrArg Run.rest looked⟩

private theorem Next.after_blanks {c : Char} (comes : Next allowed cursor) (blank : ∀ c ∈ space, isBlank c = true)
    (solid : isBlank c = false) (hyphen : c ≠ '-') (split : cursor.rest = space ++ c :: tail) :
    ∃ lexeme text rest, allowed lexeme = true ∧ lexeme.Written text rest ∧ text ++ rest = c :: tail := by
  cases comes with
  | ending ending =>
    have looked := outside_gap (blanks_gap blank) (settled_cons solid hyphen : Settled (c :: tail))
    rw [← split] at looked
    have ended := outside_ending ending
    rw [looked] at ended
    cases ended
  | lexeme step fits =>
    obtain ⟨text, written, same⟩ := step.after_blanks blank solid hyphen split
    exact ⟨_, text, _, fits, written, same⟩

private theorem Next.no_word (comes : Next afterBase cursor) {word : String} (listed : word = "OF" ∨ word = "STRING")
    (blank : ∀ c ∈ space, isBlank c = true) (stops : opens Char.isAlphanum tail = false)
    (split : cursor.rest = space ++ (word.toList ++ tail)) : False := by
  obtain ⟨lexeme, text, rest, fits, written, same⟩ : ∃ lexeme text rest, afterBase lexeme = true ∧
      lexeme.Written text rest ∧ text ++ rest = word.toList ++ tail := by
    rcases listed with rfl | rfl <;> exact comes.after_blanks blank rfl (by decide) split
  cases lexeme with
  | header name => exact header_no_word written fits (by rcases listed with rfl | rfl <;> decide) stops same
  | size parenthesis =>
    cases parenthesis with
    | false =>
      obtain ⟨_, rfl, -⟩ := spread_chars.mp written.spread
      rcases listed with rfl | rfl <;> simp at same
    | true => rcases listed with rfl | rfl <;> cases first_of written same
  | optional =>
    obtain ⟨_, rfl, -⟩ := spread_chars.mp written.spread
    rcases listed with rfl | rfl <;> simp at same
  | constraint | opening | comma | closing => rcases listed with rfl | rfl <;> cases first_of written same
  | _ => cases fits

private theorem blanks_cancel {first second front back : List Char} (left : ∀ c ∈ first, isBlank c = true)
    (right : ∀ c ∈ second, isBlank c = true) (solid : opens isBlank front = false) (dense : opens isBlank back = false)
    (same : first ++ front = second ++ back) : front = back := by
  have taken := takes_allOf left solid
  have other := takes_allOf right dense
  rw [Takes, same] at taken
  rw [Takes, taken] at other
  cases other
  rfl

private theorem Denotes.no_size {text : List Char} {bound : Bound} (denotes : Denotes text bound) (rest : List Char) :
    opens (· == 'S') (text ++ rest) = false := by
  have number {digits : List Char} (proper : Digits digits) (more : List Char) :
      opens (· == 'S') (digits ++ more) = false := by
    obtain ⟨c, others, rfl⟩ := List.exists_cons_of_ne_nil proper.some
    refine beq_false_of_ne ?_
    rintro rfl
    exact absurd (proper.all 'S' List.mem_cons_self) (by decide)
  cases denotes with
  | lowest | highest => rfl
  | whole sign proper =>
    cases sign with
    | absent => exact number proper rest
    | plus | minus => rfl
  | fraction sign proper =>
    cases sign with
    | absent =>
      rw [List.nil_append, List.append_assoc]
      exact number proper _
    | plus | minus => rfl

/-- A size in parentheses does not look like a constraint. -/
private theorem size_constraint {low rest other more : List Char} {high : Option (List Char)}
    (size : (Lexeme.size true).Written text rest) (constraint : (Lexeme.constraint low high).Written other more)
    (same : text ++ rest = other ++ more) : False := by
  have front := size.spread
  simp only [Lexeme.parts, spread_chars, spread_blanks, spread_nil] at front
  obtain ⟨_, rfl, space, _, rfl, blank, _, rfl, rfl⟩ := front
  obtain ⟨⟨bound, denotes⟩, -⟩ := constraint.proper
  obtain ⟨gap, after, tail, white⟩ : ∃ gap after, other ++ more = '(' :: (gap ++ (low ++ after)) ∧
      ∀ c ∈ gap, isBlank c = true := by
    have back := constraint.spread
    cases high with
    | none =>
      simp only [Lexeme.parts, spread_chars, spread_blanks, spread_nil] at back
      obtain ⟨_, rfl, gap, _, rfl, white, _, rfl, -⟩ := back
      exact ⟨gap, _, by simp; rfl, white⟩
    | some high =>
      simp only [Lexeme.parts, spread_chars, spread_blanks, spread_nil] at back
      obtain ⟨_, rfl, gap, _, rfl, white, _, rfl, -⟩ := back
      exact ⟨gap, _, by simp; rfl, white⟩
  rw [tail] at same
  have inner : space ++ ("SIZE".toList ++ rest) = gap ++ (low ++ after) := by simpa using same
  have equal := blanks_cancel blank white rfl (denotes.solid after) inner
  have apart := denotes.no_size after
  rw [← equal] at apart
  cases apart

theorem Next.size_missing (comes : Next afterSize cursor) : cursor.take? Form.size = none := by
  cases accepted : cursor.take? Form.size with
  | none => rfl
  | some result =>
    obtain ⟨⟨parenthesis, offset, comment⟩, after⟩ := result
    have taken := take_step reads_size accepted
    obtain ⟨c, more, front, starts⟩ := taken.front
    cases comes with
    | ending ending =>
      rw [outside_ending ending] at front
      cases front
    | @lexeme placed next step fits =>
      obtain ⟨_, _, text, run, -, written, -⟩ := step.run
      obtain ⟨_, _, other, same, -, size, -⟩ := taken.run
      have equal : text ++ next.rest = other ++ after.rest := congrArg Run.rest (run.symm.trans same)
      obtain ⟨comment, lexeme⟩ := placed
      cases parenthesis with
      | false =>
        obtain ⟨_, rfl, rest⟩ := spread_chars.mp size.spread
        obtain rfl := spread_nil.mp rest
        cases lexeme with
        | header name => exact (@header_no_word "SIZE" _ _ _ _ written fits (by decide) size.ends equal).elim
        | optional | constraint | opening | comma | closing => cases first_of written equal
        | _ => cases fits
      | true =>
        obtain ⟨_, rfl, rest⟩ := spread_chars.mp size.spread
        have begins := first_of written equal
        cases lexeme with
        | constraint low high => exact (size_constraint size written equal.symm).elim
        | header | optional | opening | comma | closing => cases begins
        | _ => cases fits

section
variable {type : String} {list : Option Read.ItemList} {size range : Option Range} {sizes limits rest : List Placed}

theorem next_list (listed : ListSpelled type list rest) (path : Path cursor rest last) (comes : Next afterShape last) :
    Next afterLimit cursor := by
  cases listed with
  | absent =>
    obtain rfl := path_nil_iff.mp path
    exact comes.widen afterShape_limit
  | present =>
    obtain ⟨_, step, -⟩ := path_cons_iff.mp path
    exact .lexeme step rfl

theorem next_limit (limited : LimitSpelled range limits) (listed : ListSpelled type list rest)
    (path : Path cursor (limits ++ rest) last) (comes : Next afterShape last) : Next afterSize cursor := by
  cases limited with
  | absent => exact (next_list listed path comes).widen afterLimit_size
  | present comment spelled =>
    obtain ⟨_, step, -⟩ := path_cons_iff.mp path
    cases spelled <;> exact .lexeme step rfl

theorem next_size (sized : SizeSpelled size sizes) (limited : LimitSpelled range limits)
    (listed : ListSpelled type list rest) (path : Path cursor (sizes ++ (limits ++ rest)) last)
    (comes : Next afterShape last) : Next afterBase cursor := by
  cases sized with
  | absent => exact (next_limit limited listed path comes).widen afterSize_base
  | bare | enclosed =>
    obtain ⟨_, step, -⟩ := path_cons_iff.mp path
    exact .lexeme step rfl

private theorem count_written {digits count : List Char} (proper : Digits digits)
    (spread : Spread (Lexeme.constraint digits none).parts count) (rest : List Char) :
    (Lexeme.constraint digits none).Written count rest := by
  have number : Denotes ([] ++ digits) (.int (digitsValue digits)) := .whole .absent proper
  exact ⟨⟨⟨_, number⟩, nofun⟩, spread, by cases rest <;> rfl⟩

/-- What looks like the count of a series stands for a constraint, and what comes after it is no series. -/
private theorem constraint_no_series {low digits count : List Char} {high : Option (List Char)} {after : List Char}
    (step : Step cursor ⟨comment, .constraint low high⟩ next) (comes : Next afterBase next) (proper : Digits digits)
    (spread : Spread (Lexeme.constraint digits none).parts count) (before : ∀ c ∈ space, isBlank c = true)
    (blank : ∀ c ∈ after, isBlank c = true) (stops : opens Char.isAlphanum tail = false)
    (split : cursor.rest = space ++ (count ++ (after ++ ("OF".toList ++ tail)))) : False := by
  obtain ⟨inner, rfl, -⟩ := spread_chars.mp spread
  obtain ⟨text, written, same⟩ := step.after_blanks before rfl (by decide) split
  have taken := takes_constraint written
  rw [Takes, same] at taken
  have other := takes_constraint (count_written proper spread (after ++ ("OF".toList ++ tail)))
  have equal := congrArg Taken.rest (Option.some.inj (taken.symm.trans other))
  exact comes.no_word (.inl rfl) blank stops equal

/-- After a base type there is nothing that looks like the count of a series and the end of it. -/
private theorem base_no_count {digits count after : List Char} (sized : SizeSpelled size sizes)
    (limited : LimitSpelled range limits) (listed : ListSpelled type list rest)
    (path : Path cursor (sizes ++ (limits ++ rest)) last) (comes : Next afterShape last) (proper : Digits digits)
    (spread : Spread (Lexeme.constraint digits none).parts count) (before : ∀ c ∈ space, isBlank c = true)
    (blank : ∀ c ∈ after, isBlank c = true) (stops : opens Char.isAlphanum tail = false)
    (split : cursor.rest = space ++ (count ++ (after ++ ("OF".toList ++ tail)))) : False := by
  obtain ⟨inner, rfl, -⟩ := spread_chars.mp spread
  cases sized with
  | absent =>
    cases limited with
    | absent =>
      obtain ⟨lexeme, text, rest, fits, written, same⟩ :=
        (next_list listed path comes).after_blanks before rfl (by decide) split
      have starts := first_of written same
      cases lexeme with
      | header | optional | opening | comma | closing => cases starts
      | _ => cases fits
    | present comment spelled =>
      obtain ⟨middle, step, onward⟩ := path_cons_iff.mp path
      have follows := ((next_list listed onward comes).widen afterLimit_size).widen afterSize_base
      cases spelled <;> exact constraint_no_series step follows proper spread before blank stops split
  | bare word constraint spelled =>
    obtain ⟨middle, step, -⟩ := path_cons_iff.mp path
    obtain ⟨text, written, same⟩ := step.after_blanks before rfl (by decide) split
    cases first_of written same
  | enclosed word constraint close spelled =>
    obtain ⟨middle, step, -⟩ := path_cons_iff.mp path
    obtain ⟨text, written, same⟩ := step.after_blanks before rfl (by decide) split
    exact size_constraint written (count_written proper spread _) same

/-- After a base type there is no `SIZE` with what looks like the count of a series and the end of it. -/
private theorem base_no_size {digits count after between : List Char} (sized : SizeSpelled size sizes)
    (limited : LimitSpelled range limits) (listed : ListSpelled type list rest)
    (path : Path cursor (sizes ++ (limits ++ rest)) last) (comes : Next afterShape last) (proper : Digits digits)
    (spread : Spread (Lexeme.constraint digits none).parts count) (before : ∀ c ∈ space, isBlank c = true)
    (middle : ∀ c ∈ between, isBlank c = true) (blank : ∀ c ∈ after, isBlank c = true)
    (stops : opens Char.isAlphanum tail = false)
    (split : cursor.rest = space ++ ("SIZE".toList ++ (between ++ (count ++ (after ++ ("OF".toList ++ tail)))))) :
    False := by
  obtain ⟨inner, rfl, -⟩ := spread_chars.mp spread
  cases sized with
  | absent =>
    obtain ⟨lexeme, text, rest, fits, written, same⟩ :=
      (next_limit limited listed path comes).after_blanks before rfl (by decide) split
    cases lexeme with
    | header name =>
      refine @header_no_word "SIZE" _ _ _ _ written fits (by decide) ?_ same
      exact opens_after_blanks (fun _ => blank_not_alphanum) middle rfl
    | optional | constraint | opening | comma | closing => cases first_of written same
    | _ => cases fits
  | bare word constraint spelled =>
    obtain ⟨position, step, onward⟩ := path_cons_iff.mp path
    obtain ⟨text, written, same⟩ := step.after_blanks before rfl (by decide) split
    obtain ⟨_, rfl, nothing⟩ := spread_chars.mp written.spread
    obtain rfl := spread_nil.mp nothing
    obtain ⟨behind, constrained, further⟩ := path_cons_iff.mp onward
    have follows := (next_limit limited listed further comes).widen afterSize_base
    have tail : position.rest = between ++ ('(' :: inner ++ (after ++ ("OF".toList ++ tail))) :=
      @List.append_cancel_left _ "SIZE".toList _ _ same
    cases spelled <;> exact constraint_no_series constrained follows proper spread middle blank stops tail
  | enclosed word constraint close spelled =>
    obtain ⟨position, step, -⟩ := path_cons_iff.mp path
    obtain ⟨text, written, same⟩ := step.after_blanks before rfl (by decide) split
    cases first_of written same

end

section
variable {name : List Char}

private theorem name_refused {α : Type} {scan : Scan α} (step : Step cursor ⟨comment, .typeName name⟩ next)
    (refused : isTypeName name = true → opens Char.isAlphanum next.rest = false →
      ∀ taken, scan (name ++ next.rest) ≠ some taken) : cursor.take? scan = none := by
  refine step.missing fun text written => ?_
  obtain ⟨_, rfl, nothing⟩ := spread_chars.mp written.spread
  obtain rfl := spread_nil.mp nothing
  rw [List.append_nil]
  exact Option.eq_none_iff_forall_ne_some.mpr (refused written.proper written.ends)

theorem enumerated_missing (step : Step cursor ⟨comment, .typeName name⟩ next)
    (free : isFreeReference name = true) : cursor.take? Form.enumerated = none := by
  refine name_refused step ?_
  intro proper ends taken accepted
  obtain ⟨split, same, stops⟩ := reads_keyword "ENUMERATED" _ taken accepted
  rw [same] at split
  have clash : clashes "ENUMERATED" name = true :=
    clashes_of_word proper ends (by decide) (ends_alphanum stops) split
  simp [isFreeReference, clash] at free

/-- A keyword of two words is refused where no name may look like the second one. -/
theorem words_missing {scan : Scan Unit} {lexeme : Lexeme} {word : String}
    (step : Step cursor ⟨comment, .typeName name⟩ next) (comes : Next afterBase next)
    (reads : Reads scan fun _ text rest => lexeme.Written text rest)
    (parts : lexeme.parts = [.chars word.toList, .someBlanks, .chars "STRING".toList])
    (continues : lexeme.continues = Char.isAlphanum) (letters : word.toList.all Char.isAlphanum = true) :
    cursor.take? scan = none := by
  refine name_refused step ?_
  intro proper ends taken accepted
  obtain ⟨split, written⟩ := reads _ taken accepted
  have spread := written.spread
  have stops := written.ends
  rw [continues] at stops
  simp only [parts, spread_chars, spread_someBlanks, spread_nil] at spread
  obtain ⟨_, same, space, _, rfl, some, blank, _, rfl, rfl⟩ := spread
  rw [same] at split
  simp only [List.append_assoc, List.nil_append] at split
  obtain ⟨letter, hyphen⟩ := blanks_end some blank ("STRING".toList ++ taken.rest)
  exact comes.no_word (.inr rfl) blank stops (name_ends proper ends letters letter hyphen split)

theorem anyType_missing (step : Step cursor ⟨comment, .typeName name⟩ next) (comes : Next afterBase next) :
    cursor.take? Form.anyType = none := by
  refine name_refused step ?_
  intro proper ends taken accepted
  obtain ⟨split, same⟩ := reads_literal _ _ taken accepted
  rw [same] at split
  have found : Takes Form.typeName name name next.rest := by
    refine takes_typeName proper ⟨ends, ?_⟩
    intro c more start
    rw [comes.follows.hyphen c more start]
    decide
  have stops : Takes Form.typeName "ABSTRACT-SYNTAX".toList "ABSTRACT-SYNTAX".toList (".&Type".toList ++ taken.rest) :=
    takes_typeName (by decide) ⟨rfl, nofun⟩
  rw [Takes, split] at found
  have after := congrArg Taken.rest (Option.some.inj (found.symm.trans stops))
  obtain ⟨lexeme, text, rest, fits, written, begins⟩ :=
    @Next.after_blanks _ _ [] _ '.' comes (by simp) rfl (by decide) after
  have starts := first_of written begins
  cases lexeme with
  | size parenthesis => cases parenthesis <;> cases starts
  | header | optional | constraint | opening | comma | closing => cases starts
  | _ => cases fits

private theorem spread_append {first second : List Part} {text : List Char} (spread : Spread (first ++ second) text) :
    ∃ front back, text = front ++ back ∧ Spread first front ∧ Spread second back := by
  induction first generalizing text with
  | nil => exact ⟨[], text, rfl, .nil, spread⟩
  | cons part first ih =>
    cases spread with
    | chars chars rest =>
      obtain ⟨front, back, rfl, left, right⟩ := ih rest
      exact ⟨chars ++ front, back, (List.append_assoc ..).symm, .chars chars left, right⟩
    | @blanks _ space _ all rest =>
      obtain ⟨front, back, rfl, left, right⟩ := ih rest
      exact ⟨space ++ front, back, (List.append_assoc ..).symm, .blanks all left, right⟩
    | @someBlanks _ space _ some all rest =>
      obtain ⟨front, back, rfl, left, right⟩ := ih rest
      exact ⟨space ++ front, back, (List.append_assoc ..).symm, .someBlanks some all left, right⟩

section
variable {type : String} {list : Option Read.ItemList} {size range : Option Range} {sizes limits rest : List Placed}

/-- A name is not taken for a series: it would have to be `SEQUENCEOF`, or what comes after it would end in `OF`. -/
theorem series_missing (step : Step cursor ⟨comment, .typeName name⟩ next) (free : isFreeReference name = true)
    (sized : SizeSpelled size sizes) (limited : LimitSpelled range limits) (listed : ListSpelled type list rest)
    (path : Path next (sizes ++ (limits ++ rest)) last) (comes : Next afterShape last) :
    cursor.take? Form.series = none := by
  refine name_refused step ?_
  intro proper ends taken accepted
  obtain ⟨split, written⟩ := reads_series _ taken accepted
  obtain ⟨count, text, after⟩ := taken
  have spread := written.spread
  have stops : opens Char.isAlphanum after = false := written.ends
  cases count with
  | none =>
    simp only [Lexeme.parts, spread_chars, spread_blanks, spread_nil] at spread
    obtain ⟨_, rfl, space, _, rfl, blank, _, rfl, rfl⟩ := spread
    by_cases some : space = []
    · subst some
      have clash : clashes "SEQUENCEOF" name = true := clashes_of_word proper ends (by decide) stops split
      simp [isFreeReference, clash] at free
    · simp only [List.append_assoc, List.nil_append] at split
      obtain ⟨letter, hyphen⟩ := blanks_end some blank ("OF".toList ++ after)
      have same := name_ends proper ends (by decide) letter hyphen split
      exact (next_size sized limited listed path comes).no_word (.inl rfl) blank stops same
  | some digits =>
    have numeral : Digits digits := written.proper digits rfl
    change Spread ([.chars "SEQUENCE".toList, .blanks, .chars "SIZE".toList, .blanks] ++
      ((Lexeme.constraint digits none).parts ++ [.blanks, .chars "OF".toList])) text at spread
    obtain ⟨front, _, rfl, head, tail⟩ := spread_append spread
    obtain ⟨count, _, rfl, counted, back⟩ := spread_append tail
    simp only [spread_chars, spread_blanks, spread_nil] at head back
    obtain ⟨_, rfl, space, _, rfl, before, _, rfl, between, _, rfl, middle, rfl⟩ := head
    obtain ⟨trail, _, rfl, blank, _, rfl, rfl⟩ := back
    simp only [List.append_assoc, List.nil_append] at split
    by_cases some : space = []
    · subst some
      have apart : opens Char.isAlphanum (between ++ (count ++ (trail ++ ("OF".toList ++ after)))) = false ∧
          opens (· == '-') (between ++ (count ++ (trail ++ ("OF".toList ++ after)))) = false := by
        by_cases white : between = []
        · subst white
          obtain ⟨inner, rfl, -⟩ := spread_chars.mp counted
          exact ⟨rfl, rfl⟩
        · exact blanks_end white middle _
      have same := @name_ends name _ "SEQUENCESIZE".toList _ proper ends (by decide) apart.1 apart.2 split
      exact base_no_count sized limited listed path comes numeral counted middle blank stops same
    · obtain ⟨letter, hyphen⟩ := blanks_end some before
        ("SIZE".toList ++ (between ++ (count ++ (trail ++ ("OF".toList ++ after)))))
      have same := name_ends proper ends (by decide) letter hyphen split
      exact base_no_size sized limited listed path comes numeral counted before middle blank stops same

end

end

end

end TypeCatalog.Proofs
