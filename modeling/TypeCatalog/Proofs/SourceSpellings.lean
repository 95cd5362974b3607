import TypeCatalog.Proofs.SourceLexemes

/-! Every spelling of a lexeme is taken as that lexeme, provided that what comes after it is a gap or another lexeme.
Without white space the text of a lexeme is its compact form, and no comment starts inside it. -/

namespace TypeCatalog.Proofs
open Source Text

/-- What may come right after a lexeme: words go on with letters and digits only, and a hyphen starts a comment. -/
structure Follows (rest : List Char) : Prop where
  word : opens Char.isAlphanum rest = false → endsWord rest = true
  hyphen : ∀ c more, rest = '-' :: c :: more → c = '-'

theorem spread_nil {text : List Char} : Spread [] text ↔ text = [] := by
  constructor
  · rintro ⟨⟩
    rfl
  · rintro rfl
    exact .nil

theorem spread_chars {parts : List Part} {chars text : List Char} :
    Spread (.chars chars :: parts) text ↔ ∃ tail, text = chars ++ tail ∧ Spread parts tail := by
  constructor
  · rintro ⟨⟩
    exact ⟨_, rfl, ‹_›⟩
  · rintro ⟨tail, rfl, rest⟩
    exact .chars chars rest

theorem spread_blanks {parts : List Part} {text : List Char} :
    Spread (.blanks :: parts) text ↔
      ∃ space tail, text = space ++ tail ∧ (∀ c ∈ space, isBlank c = true) ∧ Spread parts tail := by
  constructor
  · rintro ⟨⟩
    exact ⟨_, _, rfl, ‹_›, ‹_›⟩
  · rintro ⟨space, tail, rfl, all, rest⟩
    exact .blanks all rest

theorem spread_someBlanks {parts : List Part} {text : List Char} :
    Spread (.someBlanks :: parts) text ↔
      ∃ space tail, text = space ++ tail ∧ space ≠ [] ∧ (∀ c ∈ space, isBlank c = true) ∧ Spread parts tail := by
  constructor
  · rintro ⟨⟩
    exact ⟨_, _, rfl, ‹_›, ‹_›, ‹_›⟩
  · rintro ⟨space, tail, rfl, some, all, rest⟩
    exact .someBlanks some all rest

theorem opens_after_blanks {accepts : Char → Bool} (apart : ∀ c, isBlank c = true → accepts c = false)
    {space rest : List Char} (blank : ∀ c ∈ space, isBlank c = true) (stops : opens accepts rest = false) :
    opens accepts (space ++ rest) = false := by
  cases space with
  | nil => exact stops
  | cons c space => exact apart c (blank c List.mem_cons_self)

theorem Digits.solid {digits : List Char} (proper : Digits digits) (rest : List Char) :
    opens isBlank (digits ++ rest) = false := by
  obtain ⟨c, more, rfl⟩ := List.exists_cons_of_ne_nil proper.some
  exact digit_not_blank (proper.all c List.mem_cons_self)

theorem takes_header {name text rest : List Char} (written : (Lexeme.header name).Written text rest) :
    Takes Form.header name text rest := by
  have spread := written.spread
  simp only [Lexeme.parts, spread_chars, spread_blanks, spread_nil] at spread
  obtain ⟨_, rfl, space, _, rfl, blank, _, rfl, rfl⟩ := spread
  have ends : NameEnds Char.isAlphanum Char.isUpper (space ++ ("::=".toList ++ []) ++ rest) := by
    cases space with
    | nil => exact ⟨rfl, nofun⟩
    | cons c space =>
      have white := blank c List.mem_cons_self
      refine ⟨blank_not_alphanum white, ?_⟩
      intro d more same
      exact absurd (List.cons.inj same).1 (blank_ne_hyphen white)
  exact (takes_typeName written.proper ends).bind ((takes_allOf blank rfl).bind ((takes_literal _ _).bind (.pure _ _)))

private theorem takes_enclosed {opening closing : Char} {digits before after rest : List Char}
    (proper : Digits digits) (leading : ∀ c ∈ before, isBlank c = true) (trailing : ∀ c ∈ after, isBlank c = true)
    (solid : isBlank closing = false) (other : isDigit closing = false) :
    Takes (Form.enclosed opening closing) digits
      ([opening] ++ (before ++ (digits ++ (after ++ ([closing] ++ []))))) rest := by
  refine (takes_literal _ _).bind ((takes_allOf leading ?_).bind ((takes_someOf proper.some proper.all ?_).bind
    ((takes_allOf trailing ?_).bind ((takes_literal _ _).bind (.pure _ _)))))
  · rw [List.append_assoc]
    exact proper.solid _
  · rw [List.append_assoc]
    exact opens_after_blanks (fun _ => blank_not_digit) trailing other
  · exact solid

private theorem takes_marked {opening closing : Char} {digits text rest : List Char} {lexeme : Lexeme}
    (written : lexeme.Written text rest) (proper : Digits digits)
    (parts : lexeme.parts = [.chars [opening], .blanks, .chars digits, .blanks, .chars [closing]])
    (solid : isBlank closing = false) (other : isDigit closing = false) :
    Takes (Form.enclosed opening closing) digits text rest := by
  have spread := written.spread
  simp only [parts, spread_chars, spread_blanks, spread_nil] at spread
  obtain ⟨_, rfl, before, _, rfl, leading, _, rfl, after, _, rfl, trailing, _, rfl, rfl⟩ := spread
  exact takes_enclosed proper leading trailing solid other

theorem takes_itemNumber {digits text rest : List Char} (written : (Lexeme.itemNumber digits).Written text rest) :
    Takes Form.itemNumber digits text rest :=
  takes_marked written written.proper rfl rfl rfl

theorem takes_contextTag {digits text rest : List Char} (written : (Lexeme.contextTag digits).Written text rest) :
    Takes Form.contextTag digits text rest :=
  takes_marked written written.proper rfl rfl rfl

theorem takes_application {digits text rest : List Char} (written : (Lexeme.application digits).Written text rest) :
    Takes Form.application digits text rest := by
  have spread := written.spread
  simp only [Lexeme.parts, spread_chars, spread_blanks, spread_someBlanks, spread_nil] at spread
  obtain ⟨_, rfl, before, _, rfl, leading, _, rfl, between, _, rfl, some, middle, _, rfl, after, _, rfl, trailing, _,
    rfl, rfl⟩ := spread
  have proper : Digits digits := written.proper
  refine (takes_literal _ _).bind ((takes_allOf leading rfl).bind ((takes_literal _ _).bind
    ((takes_someOf some middle ?_).bind ((takes_someOf proper.some proper.all ?_).bind
      ((takes_allOf trailing rfl).bind ((takes_literal _ _).bind (.pure _ _)))))))
  · rw [List.append_assoc]
    exact proper.solid _
  · rw [List.append_assoc]
    exact opens_after_blanks (fun _ => blank_not_digit) trailing rfl

theorem takes_keyword {word : String} {rest : List Char} (ends : endsWord rest = true) :
    Takes (Form.keyword word) () word.toList rest := by
  have takes : Takes (Form.keyword word) () (word.toList ++ []) rest := (takes_literal _ _).bind (takes_wordEnd ends)
  rwa [List.append_nil] at takes

theorem takes_fixed {word : String} {lexeme : Lexeme} {text rest : List Char} (written : lexeme.Written text rest)
    (follows : Follows rest) (parts : lexeme.parts = [.chars word.toList])
    (letters : lexeme.continues = Char.isAlphanum) : Takes (Form.keyword word) () text rest := by
  have spread := written.spread
  have ends := written.ends
  rw [letters] at ends
  simp only [parts, spread_chars, spread_nil] at spread
  obtain ⟨_, rfl, rfl⟩ := spread
  rw [List.append_nil]
  exact takes_keyword (follows.word ends)

theorem takes_words {first second : String} {lexeme : Lexeme} {text rest : List Char} (written : lexeme.Written text rest)
    (follows : Follows rest) (parts : lexeme.parts = [.chars first.toList, .someBlanks, .chars second.toList])
    (letters : lexeme.continues = Char.isAlphanum) (solid : opens isBlank (second.toList ++ rest) = false) :
    Takes (do Scan.literal first.toList; let _ ← Scan.someBlanks; Form.keyword second) () text rest := by
  have spread := written.spread
  have ends := written.ends
  rw [letters] at ends
  simp only [parts, spread_chars, spread_someBlanks, spread_nil] at spread
  obtain ⟨_, rfl, space, _, rfl, some, blank, _, rfl, rfl⟩ := spread
  rw [List.append_nil]
  exact (takes_literal _ _).bind ((takes_someOf some blank solid).bind (takes_keyword (follows.word ends)))

theorem takes_mark {chars text rest : List Char} {lexeme : Lexeme} (written : lexeme.Written text rest)
    (parts : lexeme.parts = [.chars chars]) : Takes (Scan.literal chars) () text rest := by
  have spread := written.spread
  simp only [parts, spread_chars, spread_nil] at spread
  obtain ⟨_, rfl, rfl⟩ := spread
  rw [List.append_nil]
  exact takes_literal chars rest

theorem takes_typeNameLexeme {name text rest : List Char} (written : (Lexeme.typeName name).Written text rest)
    (follows : Follows rest) : Takes Form.typeName name text rest := by
  have spread := written.spread
  simp only [Lexeme.parts, spread_chars, spread_nil] at spread
  obtain ⟨_, rfl, rfl⟩ := spread
  rw [List.append_nil]
  refine takes_typeName written.proper ⟨written.ends, ?_⟩
  intro c more same
  rw [follows.hyphen c more same]
  rfl

theorem takes_itemNameLexeme {name text rest : List Char} (written : (Lexeme.itemName name).Written text rest)
    (follows : Follows rest) : Takes Form.itemName name text rest := by
  have spread := written.spread
  simp only [Lexeme.parts, spread_chars, spread_nil] at spread
  obtain ⟨_, rfl, rfl⟩ := spread
  rw [List.append_nil]
  refine takes_itemName written.proper ⟨written.ends, ?_⟩
  intro c more same
  rw [follows.hyphen c more same]
  rfl

theorem takes_size {parenthesis : Bool} {text rest : List Char}
    (written : (Lexeme.size parenthesis).Written text rest) (follows : Follows rest) :
    Takes Form.size parenthesis text rest := by
  have ends := follows.word written.ends
  have spread := written.spread
  cases parenthesis with
  | false =>
    simp only [Lexeme.parts, spread_chars, spread_nil] at spread
    obtain ⟨_, rfl, rfl⟩ := spread
    have taken : Takes Form.size false ([] ++ ([] ++ ("SIZE".toList ++ []))) rest :=
      (takes_nothing rfl).bind ((takes_allOf (by simp) rfl).bind ((takes_keyword ends).bind (.pure _ _)))
    exact taken
  | true =>
    simp only [Lexeme.parts, spread_chars, spread_blanks, spread_nil] at spread
    obtain ⟨_, rfl, space, _, rfl, blank, _, rfl, rfl⟩ := spread
    exact (takes_optionally (takes_literal _ _)).bind
      ((takes_allOf blank rfl).bind ((takes_keyword ends).bind (.pure _ _)))

theorem takes_series {count : Option (List Char)} {text rest : List Char}
    (written : (Lexeme.series count).Written text rest) (follows : Follows rest) :
    Takes Form.series count text rest := by
  have ends := follows.word written.ends
  have spread := written.spread
  cases count with
  | none =>
    simp only [Lexeme.parts, spread_chars, spread_blanks, spread_nil] at spread
    obtain ⟨_, rfl, space, _, rfl, blank, _, rfl, rfl⟩ := spread
    have taken : Takes Form.series none ("SEQUENCE".toList ++ (space ++ ([] ++ ("OF".toList ++ [])))) rest :=
      (takes_literal _ _).bind ((takes_allOf blank rfl).bind
        ((takes_nothing rfl).bind ((takes_keyword ends).bind (.pure _ _))))
    exact taken
  | some digits =>
    simp only [Lexeme.parts, spread_chars, spread_blanks, spread_nil] at spread
    obtain ⟨_, rfl, first, _, rfl, blank, _, rfl, second, _, rfl, white, _, rfl, before, _, rfl, leading, _, rfl, after,
      _, rfl, trailing, _, rfl, last, _, rfl, space, _, rfl, rfl⟩ := spread
    have number (tail : List Char) : Takes Form.itemNumber digits
        (['('] ++ (before ++ (digits ++ (after ++ ([')'] ++ []))))) tail :=
      takes_enclosed (written.proper digits rfl) leading trailing rfl rfl
    have counted : Takes Form.seriesCount digits ("SIZE".toList ++ (second ++
        ((['('] ++ (before ++ (digits ++ (after ++ ([')'] ++ []))))) ++ (last ++ [])))) ("OF".toList ++ [] ++ rest) :=
      (takes_literal _ _).bind ((takes_allOf white rfl).bind ((number _).bind
        ((takes_allOf space rfl).bind (.pure _ _))))
    have taken : Takes Form.series (some digits) _ rest := (takes_literal _ _).bind ((takes_allOf blank rfl).bind
      ((takes_optionally counted).bind ((takes_keyword ends).bind (.pure _ _))))
    simpa only [List.append_assoc, List.append_nil] using taken

private structure NumberEnds (rest : List Char) : Prop where
  digit : opens isDigit rest = false
  point : ∀ c more, rest = '.' :: c :: more → isDigit c = false

private theorem fraction_missing {rest : List Char} (ends : NumberEnds rest) : Form.fraction rest = none := by
  cases rest with
  | nil => rfl
  | cons c rest =>
    by_cases point : c = '.'
    · subst point
      refine (takes_literal ['.'] rest).bind_missing (bind_missing (someOf_missing ?_))
      cases rest with
      | nil => rfl
      | cons d rest => exact ends.point d rest rfl
    · have other : opens (· == '.') (c :: rest) = false := beq_false_of_ne point
      exact bind_missing (literal_missing other [])

theorem digit_no_sign {whole : List Char} (digits : Digits whole) (rest : List Char) :
    opens (· == '+') (whole ++ rest) = false ∧ opens (· == '-') (whole ++ rest) = false := by
  obtain ⟨c, more, rfl⟩ := List.exists_cons_of_ne_nil digits.some
  have digit := digits.all c List.mem_cons_self
  constructor
  · refine beq_false_of_ne ?_
    rintro rfl
    exact absurd digit (by decide)
  · refine beq_false_of_ne ?_
    rintro rfl
    exact absurd digit (by decide)

private theorem takes_sign {mark rest : List Char} {negative : Bool} (sign : Sign mark negative)
    (plus : opens (· == '+') rest = false) (minus : opens (· == '-') rest = false) :
    ∃ value : Option Char, value.toList = mark ∧
      Takes (Scan.optionally (Scan.either (do Scan.literal ['+']; return '+') (do Scan.literal ['-']; return '-')))
        value mark rest := by
  cases sign with
  | absent =>
    refine ⟨none, rfl, takes_nothing ?_⟩
    simp only [Scan.either, bind_missing (literal_missing plus []), bind_missing (literal_missing minus [])]
  | plus => exact ⟨some '+', rfl, takes_optionally (takes_first ((takes_literal _ _).bind (.pure _ _)))⟩
  | minus => exact ⟨some '-', rfl, takes_optionally (takes_second rfl ((takes_literal _ _).bind (.pure _ _)))⟩

private theorem takes_signed {mark whole tail rest : List Char} {negative : Bool} (sign : Sign mark negative)
    (digits : Digits whole) (stops : opens isDigit (tail ++ rest) = false) {places : Option (List Char)}
    (fraction : Takes (Scan.optionally Form.fraction) places tail rest) :
    Takes Form.signed (mark ++ whole ++ places.getD []) (mark ++ (whole ++ (tail ++ []))) rest := by
  have apart := digit_no_sign digits (tail ++ [] ++ rest)
  rw [← List.append_assoc] at apart
  obtain ⟨value, rfl, signed⟩ := takes_sign sign apart.1 apart.2
  refine signed.bind ((takes_someOf digits.some digits.all ?_).bind (fraction.bind (.pure _ _)))
  rwa [List.append_nil]

private theorem wordBound_missing {c : Char} {word text : List Char} (other : opens (· == c) text = false) :
    (do Scan.literal (c :: word); return c :: word : Scan (List Char)) text = none :=
  bind_missing (literal_missing other word)

private theorem takes_number {text rest : List Char} (other : opens (· == 'M') (text ++ rest) = false)
    (takes : Takes Form.signed text text rest) : Takes Form.bound text text rest :=
  takes_second (wordBound_missing other) (takes_second (wordBound_missing other) takes)

theorem sign_no_word {mark whole : List Char} {negative : Bool} (sign : Sign mark negative)
    (digits : Digits whole) (rest : List Char) : opens (· == 'M') (mark ++ whole ++ rest) = false := by
  cases sign with
  | absent =>
    obtain ⟨c, more, rfl⟩ := List.exists_cons_of_ne_nil digits.some
    refine beq_false_of_ne ?_
    rintro rfl
    exact absurd (digits.all 'M' List.mem_cons_self) (by decide)
  | plus | minus => rfl

private theorem takes_bound {text rest : List Char} {bound : Bound} (denotes : Denotes text bound)
    (ends : NumberEnds rest) : Takes Form.bound text text rest := by
  cases denotes with
  | lowest => exact takes_first ((takes_literal _ _).bind (.pure _ _))
  | highest => exact takes_second rfl (takes_first ((takes_literal _ _).bind (.pure _ _)))
  | whole sign digits =>
    refine takes_number (sign_no_word sign digits rest) ?_
    have stops : opens isDigit ([] ++ rest) = false := ends.digit
    have takes := takes_signed sign digits stops (takes_nothing (fraction_missing ends))
    simpa using takes
  | @fraction mark whole places negative sign digits tail =>
    refine takes_number ?_ ?_
    · have apart := sign_no_word sign digits ('.' :: places ++ rest)
      simpa only [List.append_assoc] using apart
    · have fraction : Takes Form.fraction ('.' :: places) (['.'] ++ (places ++ [])) rest :=
        (takes_literal _ _).bind ((takes_someOf tail.some tail.all ends.digit).bind (.pure _ _))
      have takes := takes_signed sign digits rfl (takes_optionally fraction)
      simpa using takes

theorem Denotes.solid {text : List Char} {bound : Bound} (denotes : Denotes text bound) (rest : List Char) :
    opens isBlank (text ++ rest) = false := by
  cases denotes with
  | lowest | highest => rfl
  | whole sign digits =>
    cases sign with
    | absent => exact digits.solid rest
    | plus | minus => rfl
  | fraction sign digits =>
    cases sign with
    | absent =>
      rw [List.nil_append, List.append_assoc]
      exact digits.solid _
    | plus | minus => rfl

private theorem number_ends {space rest : List Char} (blank : ∀ c ∈ space, isBlank c = true)
    (digit : opens isDigit rest = false) (point : ∀ c more, rest = '.' :: c :: more → isDigit c = false) :
    NumberEnds (space ++ rest) := by
  refine ⟨opens_after_blanks (fun _ => blank_not_digit) blank digit, ?_⟩
  cases space with
  | nil => exact point
  | cons c space =>
    intro d more same
    have white := blank c List.mem_cons_self
    rw [(List.cons.inj same).1] at white
    exact absurd white (by decide)

theorem takes_constraint {low text rest : List Char} {high : Option (List Char)}
    (written : (Lexeme.constraint low high).Written text rest) : Takes Form.constraint (low, high) text rest := by
  obtain ⟨⟨lower, least⟩, upper⟩ := written.proper
  have spread := written.spread
  cases high with
  | none =>
    simp only [Lexeme.parts, spread_chars, spread_blanks, spread_nil] at spread
    obtain ⟨_, rfl, before, _, rfl, leading, _, rfl, after, _, rfl, trailing, _, rfl, rfl⟩ := spread
    have taken : Takes Form.constraint (low, none)
        (['('] ++ (before ++ (low ++ (after ++ ([] ++ ([')'] ++ [])))))) rest := by
      refine (takes_literal _ _).bind ((takes_allOf leading ?_).bind ((takes_bound least ?_).bind
        ((takes_allOf trailing rfl).bind ((takes_nothing rfl).bind ((takes_literal _ _).bind (.pure _ _))))))
      · rw [List.append_assoc]
        exact least.solid _
      · rw [List.append_assoc]
        exact number_ends trailing rfl nofun
    exact taken
  | some high =>
    obtain ⟨higher, greatest⟩ := upper high rfl
    simp only [Lexeme.parts, spread_chars, spread_blanks, spread_nil] at spread
    obtain ⟨_, rfl, before, _, rfl, leading, _, rfl, after, _, rfl, trailing, _, rfl, second, _, rfl, white, _, rfl,
      last, _, rfl, space, _, rfl, rfl⟩ := spread
    have range : Takes Form.upperBound high (['.', '.'] ++ (second ++ (high ++ (last ++ [])))) ([')'] ++ [] ++ rest) := by
      refine (takes_literal _ _).bind ((takes_allOf white ?_).bind ((takes_bound greatest ?_).bind
        ((takes_allOf space rfl).bind (.pure _ _))))
      · rw [List.append_assoc]
        exact greatest.solid _
      · rw [List.append_assoc]
        exact number_ends space rfl nofun
    have taken : Takes Form.constraint (low, some high) (['('] ++ (before ++ (low ++ (after ++
        ((['.', '.'] ++ (second ++ (high ++ (last ++ [])))) ++ ([')'] ++ [])))))) rest := by
      refine (takes_literal _ _).bind ((takes_allOf leading ?_).bind ((takes_bound least ?_).bind
        ((takes_allOf trailing rfl).bind ((takes_optionally range).bind ((takes_literal _ _).bind (.pure _ _))))))
      · rw [List.append_assoc]
        exact least.solid _
      · rw [List.append_assoc]
        refine number_ends trailing rfl ?_
        intro c more same
        rw [← (List.cons.inj (List.cons.inj same).2).1]
        rfl
    simpa only [List.append_assoc, List.append_nil] using taken

private structure Solid (text : List Char) : Prop where
  plain : plain text = true
  dense : ∀ c ∈ text, isBlank c = false

private theorem Solid.nil : Solid [] := ⟨rfl, by simp⟩

private theorem Solid.cons {c : Char} {text : List Char} (other : c ≠ '-') (dense : isBlank c = false)
    (rest : Solid text) : Solid (c :: text) := by
  refine ⟨?_, List.forall_mem_cons.mpr ⟨dense, rest.dense⟩⟩
  simp [Proofs.plain, other, rest.plain]

private theorem Solid.hyphen {c : Char} {text : List Char} (other : c ≠ '-') (rest : Solid (c :: text)) :
    Solid ('-' :: c :: text) := by
  refine ⟨?_, List.forall_mem_cons.mpr ⟨rfl, rest.dense⟩⟩
  rw [Proofs.plain, rest.plain]
  simp [other]

private theorem digits_solid {digits : List Char} (all : ∀ c ∈ digits, isDigit c = true) {rest : List Char}
    (tail : Solid rest) : Solid (digits ++ rest) := by
  induction digits with
  | nil => exact tail
  | cons c digits ih =>
    obtain ⟨digit, all⟩ := List.forall_mem_cons.mp all
    refine .cons ?_ (digit_not_blank digit) (ih all)
    rintro rfl
    exact absurd digit (by decide)

private theorem alphanum_solid {c : Char} (letter : c.isAlphanum = true) : c ≠ '-' ∧ isBlank c = false := by
  constructor
  · rintro rfl
    exact absurd letter (by decide)
  · cases blank : isBlank c with
    | false => rfl
    | true => simp [blank_not_alphanum blank] at letter

private theorem nameTail_solid {inner afterHyphen : Char → Bool} {tail : List Char}
    (letters : ∀ c, inner c = true ∨ afterHyphen c = true → c.isAlphanum = true)
    (proper : isNameTail inner afterHyphen tail = true) : Solid tail := by
  fun_induction isNameTail inner afterHyphen tail with
  | case1 c tail ih =>
    obtain ⟨accepted, proper⟩ := Bool.and_eq_true_iff.mp proper
    obtain ⟨other, dense⟩ := alphanum_solid (letters c (.inr accepted))
    exact .hyphen other (.cons other dense (ih proper))
  | case2 c tail apart ih =>
    obtain ⟨accepted, proper⟩ := Bool.and_eq_true_iff.mp proper
    obtain ⟨other, dense⟩ := alphanum_solid (letters c (.inl accepted))
    exact .cons other dense (ih proper)
  | case3 => exact .nil

theorem upper_alphanum {c : Char} (upper : c.isUpper = true) : c.isAlphanum = true := by
  change ((c.isUpper || c.isLower) || c.isDigit) = true
  rw [upper, Bool.true_or, Bool.true_or]

theorem lower_alphanum {c : Char} (lower : c.isLower = true) : c.isAlphanum = true := by
  change ((c.isUpper || c.isLower) || c.isDigit) = true
  rw [lower, Bool.or_true, Bool.true_or]

theorem small_alphanum {c : Char} (small : Form.isSmallAlphanum c = true) : c.isAlphanum = true := by
  simp only [Form.isSmallAlphanum, Bool.or_eq_true] at small
  rcases small with lower | digit
  · exact lower_alphanum lower
  · simp [Char.isAlphanum, digit]

private theorem typeName_solid {name : List Char} (proper : isTypeName name = true) : Solid name := by
  cases name with
  | nil => cases proper
  | cons c tail =>
    obtain ⟨upper, proper⟩ := Bool.and_eq_true_iff.mp proper
    obtain ⟨other, dense⟩ := alphanum_solid (upper_alphanum upper)
    refine .cons other dense (nameTail_solid ?_ proper)
    rintro c (letter | upper)
    · exact letter
    · exact upper_alphanum upper

private theorem itemName_solid {name : List Char} (proper : isItemName name = true) : Solid name := by
  cases name with
  | nil => cases proper
  | cons c tail =>
    obtain ⟨lower, proper⟩ := Bool.and_eq_true_iff.mp proper
    obtain ⟨other, dense⟩ := alphanum_solid (lower_alphanum lower)
    refine .cons other dense (nameTail_solid ?_ proper)
    rintro c (small | small) <;> exact small_alphanum small

private theorem nameTail_chars {inner afterHyphen : Char → Bool} {tail : List Char}
    (letters : ∀ c, inner c = true ∨ afterHyphen c = true → c.isAlphanum = true)
    (proper : isNameTail inner afterHyphen tail = true) : ∀ c ∈ tail, c.isAlphanum = true ∨ c = '-' := by
  fun_induction isNameTail inner afterHyphen tail with
  | case1 c tail ih =>
    obtain ⟨accepted, proper⟩ := Bool.and_eq_true_iff.mp proper
    exact List.forall_mem_cons.mpr ⟨.inr rfl, List.forall_mem_cons.mpr ⟨.inl (letters c (.inr accepted)), ih proper⟩⟩
  | case2 c tail _ ih =>
    obtain ⟨accepted, proper⟩ := Bool.and_eq_true_iff.mp proper
    exact List.forall_mem_cons.mpr ⟨.inl (letters c (.inl accepted)), ih proper⟩
  | case3 => simp

theorem typeName_chars {name : List Char} (proper : isTypeName name = true) :
    ∀ c ∈ name, c.isAlphanum = true ∨ c = '-' := by
  cases name with
  | nil => simp
  | cons c tail =>
    obtain ⟨upper, proper⟩ := Bool.and_eq_true_iff.mp proper
    refine List.forall_mem_cons.mpr ⟨.inl (upper_alphanum upper), nameTail_chars ?_ proper⟩
    rintro c (letter | upper)
    · exact letter
    · exact upper_alphanum upper

theorem itemName_chars {name : List Char} (proper : isItemName name = true) :
    ∀ c ∈ name, c.isAlphanum = true ∨ c = '-' := by
  cases name with
  | nil => simp
  | cons c tail =>
    obtain ⟨lower, proper⟩ := Bool.and_eq_true_iff.mp proper
    refine List.forall_mem_cons.mpr ⟨.inl (lower_alphanum lower), nameTail_chars ?_ proper⟩
    rintro c (small | small) <;> exact small_alphanum small

private theorem Digits.dense {digits : List Char} (proper : Digits digits) : Solid digits := by
  have solid := digits_solid proper.all .nil
  rwa [List.append_nil] at solid

private theorem sign_solid {mark digits rest : List Char} {negative : Bool} (sign : Sign mark negative)
    (proper : Digits digits) (solid : Solid (digits ++ rest)) : Solid (mark ++ (digits ++ rest)) := by
  cases sign with
  | absent => exact solid
  | plus => exact .cons (by decide) rfl solid
  | minus =>
    obtain ⟨c, more, rfl⟩ := List.exists_cons_of_ne_nil proper.some
    refine .hyphen ?_ solid
    rintro rfl
    exact absurd (proper.all '-' List.mem_cons_self) (by decide)

private theorem fixed_solid {chars : List Char} (holds : (plain chars && chars.all (!isBlank ·)) = true) :
    Solid chars := by
  obtain ⟨plain, dense⟩ := Bool.and_eq_true_iff.mp holds
  exact ⟨plain, by simpa using dense⟩

private theorem Denotes.dense {text : List Char} {bound : Bound} (denotes : Denotes text bound) : Solid text := by
  cases denotes with
  | lowest | highest => exact fixed_solid rfl
  | whole sign digits =>
    have solid := sign_solid sign digits (digits_solid digits.all .nil)
    rwa [List.append_nil] at solid
  | fraction sign digits places =>
    exact sign_solid sign digits (digits_solid digits.all (.cons (by decide) rfl places.dense))

private def Part.Solid : Part → Prop
  | .chars text => Proofs.Solid text
  | .blanks | .someBlanks => True

/-- The fixed characters of a lexeme, its names and its numbers hold no white space and start no comment. -/
private theorem Lexeme.Proper.solid {lexeme : Lexeme} (proper : lexeme.Proper) :
    ∀ part ∈ lexeme.parts, part.Solid := by
  cases lexeme with
  | header name =>
    simp only [Lexeme.parts, List.forall_mem_cons]
    exact ⟨typeName_solid proper, trivial, fixed_solid rfl, nofun⟩
  | typeName name =>
    simp only [Lexeme.parts, List.forall_mem_cons]
    exact ⟨typeName_solid proper, nofun⟩
  | itemName name =>
    simp only [Lexeme.parts, List.forall_mem_cons]
    exact ⟨itemName_solid proper, nofun⟩
  | application digits =>
    simp only [Lexeme.parts, List.forall_mem_cons]
    exact ⟨fixed_solid rfl, trivial, fixed_solid rfl, trivial, Digits.dense proper, trivial, fixed_solid rfl, nofun⟩
  | itemNumber digits | contextTag digits =>
    simp only [Lexeme.parts, List.forall_mem_cons]
    exact ⟨fixed_solid rfl, trivial, Digits.dense proper, trivial, fixed_solid rfl, nofun⟩
  | series count =>
    cases count with
    | none =>
      simp only [Lexeme.parts, List.forall_mem_cons]
      exact ⟨fixed_solid rfl, trivial, fixed_solid rfl, nofun⟩
    | some digits =>
      simp only [Lexeme.parts, List.forall_mem_cons]
      exact ⟨fixed_solid rfl, trivial, fixed_solid rfl, trivial, fixed_solid rfl, trivial, (proper digits rfl).dense,
        trivial, fixed_solid rfl, trivial, fixed_solid rfl, nofun⟩
  | size parenthesis =>
    cases parenthesis with
    | false =>
      simp only [Lexeme.parts, List.forall_mem_cons]
      exact ⟨fixed_solid rfl, nofun⟩
    | true =>
      simp only [Lexeme.parts, List.forall_mem_cons]
      exact ⟨fixed_solid rfl, trivial, fixed_solid rfl, nofun⟩
  | constraint low high =>
    obtain ⟨⟨_, lower⟩, upper⟩ := proper
    cases high with
    | none =>
      simp only [Lexeme.parts, List.forall_mem_cons]
      exact ⟨fixed_solid rfl, trivial, lower.dense, trivial, fixed_solid rfl, nofun⟩
    | some high =>
      obtain ⟨_, upper⟩ := upper high rfl
      simp only [Lexeme.parts, List.forall_mem_cons]
      exact ⟨fixed_solid rfl, trivial, lower.dense, trivial, fixed_solid rfl, trivial, upper.dense, trivial,
        fixed_solid rfl, nofun⟩
  | bitString | octetString =>
    simp only [Lexeme.parts, List.forall_mem_cons]
    exact ⟨fixed_solid rfl, trivial, fixed_solid rfl, nofun⟩
  | anyType | enumerated | optional | opening | closing | comma | ellipsis | parenthesis =>
    simp only [Lexeme.parts, List.forall_mem_cons]
    exact ⟨fixed_solid rfl, nofun⟩

private theorem blank_plain {space : List Char} (blank : ∀ c ∈ space, isBlank c = true) {rest : List Char}
    (solid : plain rest = true) : plain (space ++ rest) = true := by
  induction space with
  | nil => exact solid
  | cons c space ih =>
    obtain ⟨white, blank⟩ := List.forall_mem_cons.mp blank
    rw [List.cons_append, plain, ih blank]
    simp [blank_ne_hyphen white]

private theorem blank_dropped {space : List Char} (blank : ∀ c ∈ space, isBlank c = true) :
    space.filter (!isBlank ·) = [] := by
  rw [List.filter_eq_nil_iff]
  intro c member
  simp [blank c member]

private theorem Spread.solid {parts : List Part} {text : List Char} (spread : Spread parts text)
    (solid : ∀ part ∈ parts, part.Solid) :
    plain text = true ∧ text.filter (!isBlank ·) = parts.flatMap fun
      | .chars text => text
      | .blanks | .someBlanks => [] := by
  induction spread with
  | nil => exact ⟨rfl, rfl⟩
  | chars text _ ih =>
    obtain ⟨dense, solid⟩ := List.forall_mem_cons.mp solid
    obtain ⟨tail, compact⟩ := ih solid
    have kept : text.filter (!isBlank ·) = text := by
      rw [List.filter_eq_self]
      intro c member
      simp [dense.dense c member]
    exact ⟨plain_append dense.plain tail, by rw [List.filter_append, kept, compact]; rfl⟩
  | blanks all _ ih | someBlanks _ all _ ih =>
    obtain ⟨tail, compact⟩ := ih (List.forall_mem_cons.mp solid).2
    refine ⟨blank_plain all tail, ?_⟩
    rw [List.filter_append, blank_dropped all, compact]
    rfl

theorem Lexeme.Written.plain {lexeme : Lexeme} {text rest : List Char} (written : lexeme.Written text rest) :
    plain text = true :=
  (written.spread.solid written.proper.solid).1

theorem Lexeme.Written.compact {lexeme : Lexeme} {text rest : List Char} (written : lexeme.Written text rest) :
    text.filter (!isBlank ·) = lexeme.compact :=
  (written.spread.solid written.proper.solid).2

private theorem spread_front {chars text : List Char} {parts : List Part} {c : Char} {more : List Char}
    (spread : Spread (.chars chars :: parts) text) (starts : chars = c :: more) : ∃ rest, text = c :: rest := by
  obtain ⟨tail, rfl, -⟩ := spread_chars.mp spread
  exact ⟨more ++ tail, by rw [starts]; rfl⟩

theorem Lexeme.Written.front {lexeme : Lexeme} {text rest : List Char} (written : lexeme.Written text rest) :
    ∃ c more, text = c :: more ∧ lexeme.first c = true := by
  have spread := written.spread
  cases lexeme with
  | header name | typeName name | itemName name =>
    cases name with
    | nil => exact absurd written.proper (by simp [Lexeme.Proper, isTypeName, isItemName])
    | cons c tail =>
      obtain ⟨more, same⟩ := spread_front spread rfl
      exact ⟨c, more, same, (Bool.and_eq_true_iff.mp written.proper).1⟩
  | series count =>
    cases count with
    | none | some _ =>
      obtain ⟨more, same⟩ := spread_front spread rfl
      exact ⟨_, more, same, rfl⟩
  | size parenthesis =>
    cases parenthesis with
    | false | true =>
      obtain ⟨more, same⟩ := spread_front spread rfl
      exact ⟨_, more, same, rfl⟩
  | constraint low high =>
    cases high with
    | none | some _ =>
      obtain ⟨more, same⟩ := spread_front spread rfl
      exact ⟨_, more, same, rfl⟩
  | _ =>
    obtain ⟨more, same⟩ := spread_front spread rfl
    exact ⟨_, more, same, rfl⟩

/-- No lexeme starts with white space, a hyphen or an underscore. -/
theorem first_solid {lexeme : Lexeme} {c : Char} (starts : lexeme.first c = true) :
    isBlank c = false ∧ c ≠ '-' ∧ (isWord c = true → c.isAlphanum = true) := by
  have letter (holds : c.isAlphanum = true) : isBlank c = false ∧ c ≠ '-' ∧ (isWord c = true → c.isAlphanum = true) :=
    ⟨(alphanum_solid holds).2, (alphanum_solid holds).1, fun _ => holds⟩
  cases lexeme with
  | header name | typeName name => exact letter (upper_alphanum starts)
  | itemName name => exact letter (lower_alphanum starts)
  | size parenthesis =>
    cases parenthesis <;> obtain rfl := eq_of_beq starts <;> decide
  | _ =>
    obtain rfl := eq_of_beq starts
    decide

end TypeCatalog.Proofs
