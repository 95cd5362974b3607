import TypeCatalog.Proofs.SourceLocality
import TypeCatalog.Proofs.SourceReaders

/-! Reading in a longer text. A reader that goes over a part of a text does there what it does in the part alone: with
characters in front every position is behind by their number, and with characters behind nothing changes if a brace is
in between. Counts of steps do not matter if there are enough of them. -/

namespace TypeCatalog.Proofs
open Source Text

def behind (before : Nat) : Fault → Fault
  | .rejected cause offset => .rejected cause (offset + before)
  | .tooManyDigits => .tooManyDigits

/-- From a position on, a reader does in a longer text what another does in the text. A value is the same if nothing is
added behind or if the end of the reading is as said, and then the start is as said too; for a fault nothing may be added
behind. -/
def Repeats {α : Type} (before : Nat) (more : List Char) (cursor : Cursor) (start : Prop) (finish : α → Cursor → Prop)
    (reader longer : Read α) : Prop :=
  match reader cursor with
  | .ok (value, next) =>
    next.rest.length ≤ cursor.rest.length ∧
      (more = [] ∨ finish value next →
        start ∧ longer (moved before more cursor) = .ok (value, moved before more next))
  | .error fault => more = [] → longer (moved before more cursor) = .error (behind before fault)

section
variable {α β : Type} {before : Nat} {more : List Char} {cursor : Cursor} {start : Prop} {reader longer : Read α}

/-- The first of two readings gives values that may differ, as tokens do in their offsets. -/
theorem Repeats.after {middle : Prop} {finish : β → Cursor → Prop} {next next' : α → Read β} {value value' : α}
    {position : Cursor} (read : reader cursor = .ok (value, position))
    (shorter : position.rest.length ≤ cursor.rest.length)
    (same : more = [] ∨ middle → start ∧ longer (moved before more cursor) = .ok (value', moved before more position))
    (rest : Repeats before more position middle finish (next value) (next' value')) :
    Repeats before more cursor start finish (reader >>= next) (longer >>= next') := by
  unfold Repeats at rest ⊢
  rw [read_bind read]
  cases onward : next value position with
  | error fault =>
    rw [onward] at rest
    intro none
    rw [read_bind (same (.inl none)).2]
    exact rest none
  | ok final =>
    obtain ⟨result, last⟩ := final
    rw [onward] at rest
    refine ⟨rest.1.trans shorter, ?_⟩
    intro ends
    obtain ⟨reached, continued⟩ := rest.2 ends
    obtain ⟨begun, repeated⟩ := same (.inr reached)
    refine ⟨begun, ?_⟩
    rw [read_bind repeated]
    exact continued

theorem Repeats.bind {middle : α → Cursor → Prop} {finish : β → Cursor → Prop} {next next' : α → Read β}
    (first : Repeats before more cursor start middle reader longer)
    (second : ∀ value position, reader cursor = .ok (value, position) → position.rest.length ≤ cursor.rest.length →
      Repeats before more position (middle value position) finish (next value) (next' value)) :
    Repeats before more cursor start finish (reader >>= next) (longer >>= next') := by
  unfold Repeats at first
  cases read : reader cursor with
  | ok result =>
    obtain ⟨value, position⟩ := result
    rw [read] at first
    exact .after read first.1 first.2 (second value position read first.1)
  | error fault =>
    rw [read] at first
    unfold Repeats
    rw [read_bind_error read]
    intro none
    exact read_bind_error (first none)

theorem Repeats.weaken {finish narrower : α → Cursor → Prop} (repeats : Repeats before more cursor start finish reader longer)
    (implies : ∀ value next, narrower value next → finish value next) :
    Repeats before more cursor start narrower reader longer := by
  unfold Repeats at repeats ⊢
  cases read : reader cursor with
  | error fault => rwa [read] at repeats
  | ok result =>
    obtain ⟨value, next⟩ := result
    rw [read] at repeats
    refine ⟨repeats.1, ?_⟩
    intro ends
    exact repeats.2 (ends.imp_right (implies value next))

theorem Repeats.pure {finish : α → Cursor → Prop} {value : α} (implies : more = [] ∨ finish value cursor → start) :
    Repeats before more cursor start finish (Pure.pure value : Read α) (Pure.pure value) :=
  ⟨le_rfl, fun ends => ⟨implies ends, rfl⟩⟩

theorem repeats_rejectHere {finish : α → Cursor → Prop} (cause : Cause) :
    Repeats before more cursor start finish (Read.rejectHere cause) (Read.rejectHere cause) :=
  fun _ => rfl

end

section
variable {α β : Type} {before : Nat} {more : List Char} {cursor : Cursor} {scan : Scan α} {lexeme : α → Lexeme}
  {finish : β → Cursor → Prop}

theorem skip_length (cursor : Cursor) : cursor.skip.2.rest.length ≤ cursor.rest.length := by
  rcases (outside_splits cursor.rest).2 with ⟨gap, -, -, whole⟩ | ⟨-, empty, -⟩
  · have longer := congrArg List.length whole
    rw [List.length_append] at longer
    exact Nat.le_of_add_left_le longer.ge
  · exact (congrArg List.length empty).trans_le (Nat.zero_le _)

theorem repeats_skip {next next' : Skip → Read β}
    (rest : Repeats before more cursor.skip.2 (Safe more cursor.skip.2) finish (next cursor.skip.1) (next' cursor.skip.1)) :
    Repeats before more cursor (Safe more cursor) finish (Read.skip >>= next) (Read.skip >>= next') := by
  refine .after rfl (skip_length cursor) ?_ rest
  intro ends
  have safe : Safe more cursor := safe_of_skip (ends.elim .inl id)
  refine ⟨safe, ?_⟩
  rw [Read.skip, skip_moved safe]
  rfl

theorem repeats_attempt (reads : Recognises scan lexeme) (scanned : Local scan) {next next' : Option (Token α) → Read β}
    (absent : Repeats before more cursor (Safe more cursor) finish (next none) (next' none))
    (present : ∀ token position, position.rest.length < cursor.rest.length →
      Repeats before more position (Safe more position) finish (next (some token)) (next' (some (later before token)))) :
    Repeats before more cursor (Safe more cursor) finish (Read.attempt scan >>= next) (Read.attempt scan >>= next') := by
  cases found : cursor.take? scan with
  | none =>
    have read : Read.attempt scan cursor = .ok (none, cursor) := by rw [Read.attempt, found]
    refine .after read le_rfl ?_ absent
    intro ends
    have safe : Safe more cursor := ends.elim .inl id
    refine ⟨safe, ?_⟩
    rw [Read.attempt, take_moved scanned.steady safe, found]
    rfl
  | some result =>
    obtain ⟨token, position⟩ := result
    have step := take_step reads found
    have read : Read.attempt scan cursor = .ok (some token, position) := by rw [Read.attempt, found]
    refine .after read step.shorter.le ?_ (present token position step.shorter)
    intro ends
    have safe : Safe more cursor := safe_of_step step (ends.elim .inl id)
    refine ⟨safe, ?_⟩
    rw [Read.attempt, take_moved scanned.steady safe, found]
    rfl

/-- A form that has to come next. What shields its end, or its own brace, shields its start. -/
private theorem repeats_require {expected : Expected} {middle : Cursor → Prop} (reads : Recognises scan lexeme)
    (steady : Steady scan) (covers : ∀ token position, cursor.take? scan = some (token, position) →
      more = [] ∨ middle position → Safe more cursor)
    {next next' : Token α → Read β} (present : ∀ token position, position.rest.length < cursor.rest.length →
      Repeats before more position (middle position) finish (next token) (next' (later before token))) :
    Repeats before more cursor (Safe more cursor) finish ((fun cursor => cursor.require expected scan : Read (Token α)) >>= next)
      ((fun cursor => cursor.require expected scan : Read (Token α)) >>= next') := by
  cases found : cursor.take? scan with
  | none =>
    have read : cursor.require expected scan = .error (.rejected (.missing expected) cursor.skip.2.offset) := by
      rw [Cursor.require, found]
    unfold Repeats
    rw [read_bind_error read]
    intro none
    have safe : Safe more cursor := .inl none
    apply read_bind_error
    rw [Cursor.require, take_moved steady safe, found, skip_moved safe]
    rfl
  | some result =>
    obtain ⟨token, position⟩ := result
    have shorter := (take_step reads found).shorter
    have read : cursor.require expected scan = .ok (token, position) := by rw [Cursor.require, found]
    refine .after read shorter.le ?_ (present token position shorter)
    intro ends
    have safe := covers token position found ends
    refine ⟨safe, ?_⟩
    rw [Cursor.require, take_moved steady safe, found]
    rfl

theorem repeats_form {expected : Expected} (reads : Recognises scan lexeme) (scanned : Local scan)
    {next next' : Token α → Read β} (present : ∀ token position, position.rest.length < cursor.rest.length →
      Repeats before more position (Safe more position) finish (next token) (next' (later before token))) :
    Repeats before more cursor (Safe more cursor) finish ((fun cursor => cursor.require expected scan : Read (Token α)) >>= next)
      ((fun cursor => cursor.require expected scan : Read (Token α)) >>= next') := by
  refine repeats_require reads scanned.steady ?_ present
  intro token position found ends
  exact safe_of_step (take_step reads found) (ends.elim .inl id)

/-- After the brace that ends an item list anything may follow. -/
theorem repeats_closing {next next' : Token Unit → Read β}
    (present : ∀ token position, Repeats before more position True finish (next token) (next' (later before token))) :
    Repeats before more cursor (Safe more cursor) finish (Read.mark "\x7d" >>= next) (Read.mark "\x7d" >>= next') := by
  have reads : Recognises (Scan.literal "\x7d".toList) fun _ => .closing := .always (reads_mark .closing trivial rfl rfl)
  refine repeats_require reads (steady_mark _) ?_ fun token position _ => present token position
  intro token position found _
  obtain ⟨size, comments, text, run, -, written, -⟩ := (take_step reads found).run
  right
  rw [Shielded, run]
  have spread := written.spread
  rcases spread with _ | ⟨_, ⟨⟩⟩
  simp

end

def Still {α : Type} (before : Nat) (reader longer : Read α) : Prop :=
  (∃ value, ∀ cursor, reader cursor = .ok (value, cursor) ∧ longer cursor = .ok (value, cursor)) ∨
    ∃ fault, ∀ cursor, reader cursor = .error fault ∧ longer cursor = .error (behind before fault)

section
variable {α β : Type} {before : Nat} {more : List Char} {cursor : Cursor} {reader longer : Read α}

theorem Still.bind {next next' : α → Read β} (first : Still before reader longer)
    (second : ∀ value, Still before (next value) (next' value)) : Still before (reader >>= next) (longer >>= next') := by
  rcases first with ⟨value, read⟩ | ⟨fault, read⟩
  · rcases second value with ⟨result, onward⟩ | ⟨fault, onward⟩
    · refine .inl ⟨result, fun cursor => ?_⟩
      rw [read_bind (read cursor).1, read_bind (read cursor).2]
      exact onward cursor
    · refine .inr ⟨fault, fun cursor => ?_⟩
      rw [read_bind (read cursor).1, read_bind (read cursor).2]
      exact onward cursor
  · exact .inr ⟨fault, fun cursor => ⟨read_bind_error (read cursor).1, read_bind_error (read cursor).2⟩⟩

theorem Still.pure (value : α) : Still before (Pure.pure value : Read α) (Pure.pure value) :=
  .inl ⟨value, fun _ => ⟨rfl, rfl⟩⟩

theorem still_natural (digits : List Char) : Still before (Read.natural digits) (Read.natural digits) := by
  by_cases short : digits.length ≤ digitLimit
  · exact .inl ⟨digitsValue digits, fun cursor => by simp only [natural_eq, short, if_true, and_self]⟩
  · exact .inr ⟨.tooManyDigits, fun cursor => by simp only [natural_eq, short, if_false, behind, and_self]⟩

theorem still_bound (text : List Char) : Still before (Read.bound text) (Read.bound text) := by
  rw [Read.bound]
  split
  · exact .pure _
  split
  · exact .pure _
  split
  split
  · exact .pure _
  · exact (still_natural _).bind fun _ => .pure _

theorem still_range (token : Token (List Char × Option (List Char))) :
    Still before (Read.range token) (Read.range (later before token)) := by
  refine (still_bound _).bind fun low => ?_
  have ordered (high : Bound) : Still before
      (do if high.lt low then Read.reject (.invertedRange low high) token.offset
          return ⟨low, high⟩ : Read Range)
      (do if high.lt low then Read.reject (.invertedRange low high) (later before token).offset
          return ⟨low, high⟩) := by
    by_cases inverted : high.lt low = true
    · simp only [inverted, if_true]
      exact .inr ⟨.rejected (.invertedRange low high) token.offset, fun cursor => ⟨rfl, rfl⟩⟩
    · simp only [inverted]
      exact .pure _
  obtain ⟨⟨lower, upper⟩, offset, comment⟩ := token
  cases upper with
  | none => exact ordered low
  | some text => exact (still_bound text).bind ordered

theorem Still.repeats {finish : β → Cursor → Prop} {start : Prop} {next next' : α → Read β}
    (first : Still before reader longer)
    (rest : ∀ value, Repeats before more cursor start finish (next value) (next' value)) :
    Repeats before more cursor start finish (reader >>= next) (longer >>= next') := by
  unfold Repeats
  rcases first with ⟨value, read⟩ | ⟨fault, read⟩
  · rw [read_bind (read cursor).1, read_bind (read _).2]
    exact rest value
  · rw [read_bind_error (read cursor).1]
    intro _
    exact read_bind_error (read _).2

end

section
variable {α β : Type} {before : Nat} {more : List Char} {cursor : Cursor} {finish : β → Cursor → Prop}

theorem Repeats.done {value : α} : Repeats before more cursor (Safe more cursor) (fun _ next => Safe more next)
    (Pure.pure value : Read α) (Pure.pure value) :=
  .pure fun ends => ends.elim .inl id

theorem repeats_series :
    Repeats before more cursor (Safe more cursor) (fun _ next => Safe more next) Read.series Read.series := by
  refine repeats_attempt (.always reads_series) local_series .done ?_
  rintro ⟨count, offset, comment⟩ position _
  cases count with
  | none => exact .done
  | some digits => exact (still_natural digits).repeats fun _ => .done

private theorem repeats_keyword {scan : Scan Unit} {lexeme : Lexeme} {type : String} {others : Read String}
    {next next' : String → Read β} (reads : Reads scan fun _ text rest => lexeme.Written text rest) (scanned : Local scan)
    (chosen : ∀ type position, position.rest.length < cursor.rest.length →
      Repeats before more position (Safe more position) finish (next type) (next' type))
    (rest : Repeats before more cursor (Safe more cursor) finish (others >>= next) (others >>= next')) :
    Repeats before more cursor (Safe more cursor) finish
      ((do if (← Read.attempt scan).isSome then return type
           others) >>= next)
      ((do if (← Read.attempt scan).isSome then return type
           others) >>= next') := by
  simp only [bind_assoc]
  refine repeats_attempt (.always reads) scanned rest ?_
  intro token position shorter
  exact chosen type position shorter

private theorem repeats_baseType {next next' : String → Read β} (rest : ∀ type position,
      position.rest.length < cursor.rest.length →
      Repeats before more position (Safe more position) finish (next type) (next' type)) :
    Repeats before more cursor (Safe more cursor) finish (Read.baseType >>= next) (Read.baseType >>= next') := by
  refine repeats_keyword (reads_mark .anyType trivial rfl rfl) local_anyType rest ?_
  refine repeats_keyword (reads_fixed .enumerated rfl trivial rfl rfl) local_enumerated rest ?_
  refine repeats_keyword reads_bitString local_bitString rest ?_
  refine repeats_keyword reads_octetString local_octetString rest ?_
  simp only [bind_assoc]
  refine repeats_form (.always reads_typeNameLexeme) local_typeName ?_
  intro token position shorter
  exact rest (String.ofList token.value) position shorter

theorem repeats_size :
    Repeats before more cursor (Safe more cursor) (fun _ next => Safe more next) Read.size Read.size := by
  refine repeats_attempt reads_size local_size .done ?_
  rintro ⟨parenthesis, offset, comment⟩ position _
  refine repeats_form (.always reads_constraint) local_constraint ?_
  intro token behind _
  refine (still_range token).repeats fun range => ?_
  cases parenthesis with
  | false => exact .done
  | true => exact repeats_form (.always (reads_mark .parenthesis trivial rfl rfl)) (local_literal (by decide)) fun _ _ _ => .done

theorem repeats_valueRange :
    Repeats before more cursor (Safe more cursor) (fun _ next => Safe more next) Read.valueRange Read.valueRange := by
  refine repeats_attempt (.always reads_constraint) local_constraint .done ?_
  intro token position _
  exact (still_range token).repeats fun _ => .done

theorem repeats_number {scan : Scan (List Char)} {lexeme : List Char → Lexeme} (reads : Recognises scan lexeme)
    (scanned : Local scan) :
    Repeats before more cursor (Safe more cursor) (fun _ next => Safe more next) (Read.number scan) (Read.number scan) := by
  refine repeats_attempt reads scanned .done ?_
  intro token position _
  exact (still_natural token.value).repeats fun _ => .done

theorem repeats_valueItem (name : String) (comment : Option String) :
    Repeats before more cursor (Safe more cursor) (fun _ next => Safe more next) (Read.valueItem name comment)
      (Read.valueItem name comment) := by
  refine repeats_form (.always reads_itemNumber) local_itemNumber ?_
  intro token position _
  exact (still_natural token.value).repeats fun _ => .done

end

/-- What the readers that call each other do with a count of steps that is enough, and with a greater one. -/
private structure Same (before : Nat) (more : List Char) (steps greater : Nat) : Prop where
  type : ∀ cursor, 2 * cursor.rest.length ≤ steps → Repeats before more cursor (Safe more cursor)
    (fun shape next => shape.items.isSome = true ∨ Safe more next) (Read.type steps) (Read.type greater)
  itemList : ∀ cursor base, 2 * cursor.rest.length < steps → Repeats before more cursor (Safe more cursor)
    (fun list next => list.isSome = true ∨ Safe more next) (Read.itemList steps base) (Read.itemList greater base)
  items : ∀ cursor kind, 2 * cursor.rest.length < steps → Repeats before more cursor (Safe more cursor)
    (fun _ next => Safe more next) (Read.items steps kind) (Read.items greater kind)
  typedItem : ∀ cursor name comment, 2 * cursor.rest.length < steps → Repeats before more cursor (Safe more cursor)
    (fun _ next => Safe more next) (Read.typedItem steps name comment) (Read.typedItem greater name comment)

section
variable {before : Nat} {more : List Char} {steps greater : Nat} {cursor : Cursor}

private theorem same_type (same : Same before more steps greater) (enough : 2 * cursor.rest.length ≤ steps + 1) :
    Repeats before more cursor (Safe more cursor) (fun shape next => shape.items.isSome = true ∨ Safe more next)
      (Read.type (steps + 1)) (Read.type (greater + 1)) := by
  rw [Read.type, Read.type]
  refine repeats_series.bind ?_
  intro series first _ notLonger
  refine repeats_baseType ?_
  intro base second shorter
  refine repeats_size.bind ?_
  intro size third _ notLonger'
  refine repeats_valueRange.bind ?_
  intro range fourth _ notLonger''
  refine (same.itemList fourth base (by omega)).bind ?_
  intro list last _ _
  refine .pure ?_
  rintro (none | listed | safe)
  · exact .inr (.inl none)
  · exact .inl (by simpa using listed)
  · exact .inr safe

private theorem same_typedItem (same : Same before more steps greater) (enough : 2 * cursor.rest.length < steps + 1)
    (name : String) (comment : Option String) :
    Repeats before more cursor (Safe more cursor) (fun _ next => Safe more next) (Read.typedItem (steps + 1) name comment)
      (Read.typedItem (greater + 1) name comment) := by
  rw [Read.typedItem, Read.typedItem]
  refine (repeats_number (.always reads_contextTag) local_contextTag).bind ?_
  intro tag position _ notLonger
  refine ((same.type position (by omega)).weaken fun _ _ => .inr).bind ?_
  intro shape behind _ _
  refine repeats_attempt (.always (reads_fixed .optional rfl trivial rfl rfl)) local_optional .done ?_
  intro token last _
  exact .done

private theorem same_itemBody (same : Same before more steps greater) (enough : 2 * cursor.rest.length < steps)
    (kind : Kind) (name : String) (comment : Option String) :
    Repeats before more cursor (Safe more cursor) (fun _ next => Safe more next) (itemBody steps kind name comment)
      (itemBody greater kind name comment) := by
  rw [itemBody, itemBody]
  split
  · exact repeats_valueItem name comment
  · exact same.typedItem cursor name comment enough

private theorem same_afterItem (same : Same before more steps greater) (enough : 2 * cursor.rest.length < steps)
    (kind : Kind) (item : Item) :
    Repeats before more cursor (Safe more cursor) (fun _ next => Safe more next) (afterItem steps kind item)
      (afterItem greater kind item) := by
  have others {position : Cursor} (notLonger : position.rest.length ≤ cursor.rest.length) :
      Repeats before more position (Safe more position) (fun _ next => Safe more next)
        (do let others ← Read.items steps kind
            return (item :: others.1, others.2) : Read (List Item × Bool))
        (do let others ← Read.items greater kind
            return (item :: others.1, others.2)) := by
    refine (same.items position kind (by omega)).bind ?_
    rintro ⟨list, extensible⟩ last _ _
    exact .done
  refine repeats_attempt (.always (reads_mark .comma trivial rfl rfl)) (local_literal (by decide)) .done ?_
  intro comma position shorter
  rw [if_neg (show ¬ (some comma).isNone = true by simp), if_neg (show ¬ (some (later before comma)).isNone = true by simp)]
  by_cases sequence : kind = .sequence
  · subst sequence
    exact others shorter.le
  · have other : (kind != .sequence) = true := by simpa using sequence
    rw [if_pos other, if_pos other]
    refine repeats_attempt (.always (reads_mark .ellipsis trivial rfl rfl)) (local_literal (by decide)) ?_ ?_
    · exact others shorter.le
    · intro dots last _
      exact .done

private theorem same_items (same : Same before more steps greater) (enough : 2 * cursor.rest.length < steps + 1)
    (kind : Kind) :
    Repeats before more cursor (Safe more cursor) (fun _ next => Safe more next) (Read.items (steps + 1) kind)
      (Read.items (greater + 1) kind) := by
  rw [items_succ, items_succ]
  refine repeats_skip ?_
  by_cases some : cursor.skip.1.more = true
  · rw [if_neg (by simp [some]), if_neg (by simp [some])]
    refine repeats_form (.always reads_itemNameLexeme) local_itemName ?_
    intro name position shorter
    have skipped := skip_length cursor
    refine (same_itemBody same (by omega) kind _ _).bind ?_
    intro item last _ notLonger
    exact same_afterItem same (by omega) kind item
  · rw [if_pos (by simp [some]), if_pos (by simp [some])]
    exact .done

private theorem same_itemList (same : Same before more steps greater) (enough : 2 * cursor.rest.length < steps + 1)
    (base : String) :
    Repeats before more cursor (Safe more cursor) (fun list next => list.isSome = true ∨ Safe more next)
      (Read.itemList (steps + 1) base) (Read.itemList (greater + 1) base) := by
  rw [Read.itemList, Read.itemList]
  refine repeats_attempt (.always (reads_mark .opening trivial rfl rfl)) (local_literal (by decide)) ?_ ?_
  · refine .pure ?_
    rintro (none | listed | safe)
    · exact .inl none
    · cases listed
    · exact safe
  intro opening position shorter
  rw [if_neg (by simp), if_neg (by simp)]
  cases Kind.ofTypeName? base with
  | none => exact repeats_rejectHere _
  | some kind =>
    dsimp only
    by_cases bare : (!kind.isSimple && !kind.isComplex) = true
    · rw [if_pos bare, if_pos bare]
      have refused : Repeats before more position (Safe more position) (fun _ _ => True)
          (Read.rejectHere (.noItems base) : Read Unit) (Read.rejectHere (.noItems base)) := repeats_rejectHere _
      apply refused.bind
      intro nothing last impossible
      cases impossible
    · rw [if_neg bare, if_neg bare]
      refine (same.items position kind (by omega)).bind ?_
      rintro ⟨list, extensible⟩ last _ _
      refine repeats_closing ?_
      intro closing final
      exact .pure fun _ => trivial

private theorem type_empty (steps offset : Nat) :
    Read.type steps ⟨offset, []⟩ = .error (.rejected (.missing (.pattern .typeName)) offset) := by
  cases steps <;> rfl

private theorem same (before : Nat) (more : List Char) {steps greater : Nat} (enough : steps ≤ greater) :
    Same before more steps greater := by
  induction steps generalizing greater with
  | zero =>
    refine ⟨?_, by omega, by omega, by omega⟩
    rintro ⟨offset, rest⟩ small
    obtain rfl : rest = [] := List.eq_nil_of_length_eq_zero (by dsimp only at small; omega)
    rw [Repeats, type_empty]
    rintro rfl
    exact type_empty ..
  | succ steps ih =>
    obtain ⟨greater, rfl⟩ : ∃ less, greater = less + 1 := ⟨greater - 1, by omega⟩
    have fewer : Same before more steps greater := ih (by omega)
    exact {
      type := fun cursor enough => same_type fewer enough
      itemList := fun cursor base enough => same_itemList fewer enough base
      items := fun cursor kind enough => same_items fewer enough kind
      typedItem := fun cursor name comment enough => same_typedItem fewer enough name comment }

theorem repeats_definition (enough : cursor.rest.length ≤ steps) (notFewer : steps ≤ greater) (comment : Option String) :
    Repeats before more cursor (Safe more cursor) (fun definition next => definition.items.isSome = true ∨ Safe more next)
      (Read.definition (2 * steps) comment) (Read.definition (2 * greater) comment) := by
  refine repeats_form (.always reads_header) local_header ?_
  intro header position shorter
  refine (repeats_number (.always reads_application) local_application).bind ?_
  intro primitive second _ notLonger
  refine ((same before more (by omega)).type second (by omega)).bind ?_
  intro shape last _ _
  exact .pure fun ends => ends.elim (.inr ∘ .inl) id

/-- A definition that was read after what was skipped is spelled by lexemes from there on. -/
theorem definition_path {definition : Definition} {next : Cursor} (enough : cursor.rest.length ≤ steps)
    (read : Read.definition (2 * steps) cursor.skip.1.comment cursor.skip.2 = .ok (definition, next)) :
    ∃ placed, DefinitionSpelled definition placed ∧ Path cursor placed next ∧ next.rest.length < cursor.rest.length := by
  have inside : At (List.replicate cursor.offset ' ' ++ cursor.rest) cursor := ⟨_, rfl, List.length_replicate⟩
  have outcome := definition_outcome inside enough
  rw [read] at outcome
  cases outcome with
  | ok _ holds =>
    obtain ⟨placed, spelled, path⟩ := holds
    have shorter := path.shorter
    have some : 0 < placed.length := by
      cases spelled
      simp
    exact ⟨placed, spelled, path, by omega⟩

/-- With characters in front only, all definitions are the same. -/
theorem repeats_definitions (enough : cursor.rest.length < steps) (notFewer : steps ≤ greater) :
    Repeats before [] cursor (Safe [] cursor) (fun _ next => Safe [] next) (Read.definitions steps)
      (Read.definitions greater) := by
  induction steps generalizing greater cursor with
  | zero => omega
  | succ steps ih =>
    obtain ⟨greater, rfl⟩ : ∃ less, greater = less + 1 := ⟨greater - 1, by omega⟩
    rw [Read.definitions, Read.definitions]
    refine repeats_skip ?_
    by_cases some : cursor.skip.1.more = true
    · rw [if_neg (by simp [some]), if_neg (by simp [some])]
      have skipped := skip_length cursor
      refine ((repeats_definition (by omega) (by omega) _).weaken fun _ _ => .inr).bind ?_
      intro definition position read _
      obtain ⟨-, -, -, shorter⟩ := definition_path (by omega) read
      refine (ih (by omega) (by omega)).bind ?_
      intro others last _ _
      exact .done
    · rw [if_pos (by simp [some]), if_pos (by simp [some])]
      exact .done

end

end TypeCatalog.Proofs
