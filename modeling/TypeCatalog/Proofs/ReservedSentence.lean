import TypeCatalog.Normal.Reserved
import TypeCatalog.Proofs.SourceGaps
import TypeCatalog.Proofs.SourceWellFormed

/-! The sentence about reserved values in comments. However its words are spread over the lines of a comment, the comment
that is read is the sentence in one line, and the sentence is recognised with the digits of its four limits. -/

namespace TypeCatalog.Proofs
open Source Text

def spaced (words : List (List Char)) : List Char := [' '].intercalate words

/-- Words with a space in front of each. -/
def led (words : List (List Char)) : List Char := words.flatMap (' ' :: ·)

def trailed (words : List (List Char)) : List Char := words.flatMap (· ++ [' '])

section
variable {word : List Char} {words more : List (List Char)}

theorem spaced_cons (word : List Char) (words : List (List Char)) : spaced (word :: words) = word ++ led words := by
  induction words generalizing word with
  | nil => simp [spaced, led, List.intercalate]
  | cons next words ih =>
    have rest := ih next
    rw [spaced, List.intercalate] at rest ⊢
    rw [List.intersperse_cons_cons, List.flatten_cons, List.flatten_cons, rest]
    rfl

theorem led_append (words more : List (List Char)) : led (words ++ more) = led words ++ led more := List.flatMap_append

theorem led_spaced (some : words ≠ []) : ' ' :: spaced words = led words := by
  obtain ⟨word, rest, rfl⟩ := List.exists_cons_of_ne_nil some
  rw [spaced_cons]
  rfl

theorem led_trailed (words : List (List Char)) (word : List Char) (more : List (List Char)) :
    led (words ++ word :: more) = ' ' :: (trailed words ++ (word ++ led more)) := by
  induction words with
  | nil => rfl
  | cons first words ih =>
    rw [List.cons_append]
    change ' ' :: (first ++ led (words ++ word :: more)) = ' ' :: ((first ++ [' '] ++ trailed words) ++ _)
    rw [ih]
    simp

end

structure Unspaced (word : List Char) : Prop where
  some : word ≠ []
  all : ∀ c ∈ word, isBlank c = false

theorem unspaced_of_all {words : List (List Char)}
    (all : words.all (fun word => !word.isEmpty && word.all (!isBlank ·)) = true) : ∀ word ∈ words, Unspaced word := by
  intro word listed
  have known := List.all_eq_true.mp all word listed
  rw [Bool.and_eq_true, List.all_eq_true] at known
  exact ⟨by simpa using known.1, fun c member => by simpa using known.2 c member⟩

theorem Unspaced.solid {word : List Char} (unspaced : Unspaced word) (rest : List Char) :
    opens isBlank (word ++ rest) = false := by
  obtain ⟨c, more, rfl⟩ := List.exists_cons_of_ne_nil unspaced.some
  exact unspaced.all c List.mem_cons_self

theorem Unspaced.clean {word : List Char} (unspaced : Unspaced word) : Clean word := by
  have ends {text : List Char} (all : ∀ c ∈ text, isBlank c = false) : opens isBlank text = false := by
    cases text with
    | nil => rfl
    | cons c rest => exact all c List.mem_cons_self
  refine ⟨unspaced.some, ?_, ends unspaced.all, ends ?_⟩
  · intro member
    have blank := unspaced.all '\n' member
    cases blank
  · intro c member
    exact unspaced.all c (List.mem_reverse.mp member)

theorem spaced_clean {words : List (List Char)} (some : words ≠ []) (unspaced : ∀ word ∈ words, Unspaced word) :
    Clean (spaced words) :=
  intercalate_clean some fun word listed => (unspaced word listed).clean

theorem Clean.strip_padded {text left right : List Char} (clean : Clean text) (before : ∀ c ∈ left, isBlank c = true)
    (after : ∀ c ∈ right, isBlank c = true) : strip (left ++ (text ++ right)) = text := by
  obtain ⟨c, rest, rfl⟩ := List.exists_cons_of_ne_nil clean.some
  have starts : opens isBlank (c :: (rest ++ right)) = false := clean.front
  have front := (stops_at starts).2
  have back := (stops_at clean.back).2
  rw [strip, List.dropWhile_append_of_pos before, List.cons_append, front, ← List.cons_append, List.reverse_append,
    List.dropWhile_append_of_pos fun c member => after c (List.mem_reverse.mp member), back, List.reverse_reverse]

/-- Words spread over the lines of comments: white space may stand around each line and in it around its words, and a line
may have no words at all. -/
inductive Wrapped : List (List Char) → List Char → Prop where
  | done {space : List Char} (blank : ∀ c ∈ space, isBlank c = true) : Wrapped [] space
  | line {piece words : List (List Char)} {indent left right gap : List Char} (blank : ∀ c ∈ indent, isBlank c = true)
      (before : ∀ c ∈ left, isBlank c = true ∧ c ≠ '\n') (after : ∀ c ∈ right, isBlank c = true ∧ c ≠ '\n')
      (more : Wrapped words gap) :
      Wrapped (piece ++ words) (indent ++ '-' :: '-' :: ((left ++ (spaced piece ++ right)) ++ '\n' :: gap))

theorem Gap.indented {indent gap : List Char} {comments : List (List Char)} (blank : ∀ c ∈ indent, isBlank c = true)
    (skipped : Gap gap comments) : Gap (indent ++ gap) comments := by
  induction indent with
  | nil => exact skipped
  | cons c indent ih =>
    obtain ⟨white, others⟩ := List.forall_mem_cons.mp blank
    exact .blank white (ih others)

theorem Wrapped.gap {words : List (List Char)} {gap : List Char} (wrapped : Wrapped words gap)
    (unspaced : ∀ word ∈ words, Unspaced word) :
    ∃ comments, Gap gap comments ∧ led ((comments.map strip).filter (!·.isEmpty)) = led words := by
  induction wrapped with
  | done blank => exact ⟨[], blanks_gap blank, rfl⟩
  | @line piece words indent left right gap blank before after more ih =>
    obtain ⟨own, others⟩ := List.forall_mem_append.mp unspaced
    obtain ⟨comments, skipped, same⟩ := ih others
    have line : '\n' ∉ left ++ (spaced piece ++ right) := by
      have inner : '\n' ∉ spaced piece := by
        cases piece with
        | nil => exact List.not_mem_nil
        | cons word piece => exact (spaced_clean (by simp) own).line
      rw [List.mem_append, List.mem_append, not_or, not_or]
      exact ⟨fun member => (before _ member).2 rfl, inner, fun member => (after _ member).2 rfl⟩
    refine ⟨(left ++ (spaced piece ++ right)) :: comments, .indented blank (.comment line skipped), ?_⟩
    rw [List.map_cons, led_append, ← same]
    cases piece with
    | nil =>
      have empty : strip (left ++ (spaced [] ++ right)) = [] := by
        apply strip_empty.mpr
        intro c member
        rcases List.mem_append.mp member with first | second
        · exact (before c first).1
        · exact (after c second).1
      rw [empty]
      rfl
    | cons word piece =>
      have clean := spaced_clean (by simp) own
      have stripped := clean.strip_padded (fun c member => (before c member).1) fun c member => (after c member).1
      rw [stripped, List.filter_cons_of_pos (by simpa using clean.some)]
      change ' ' :: spaced (word :: piece) ++ led _ = _
      rw [led_spaced (by simp)]

/-- The comment that is read from words spread over lines is the words in one line. -/
theorem Wrapped.comment {words : List (List Char)} {gap : List Char} (wrapped : Wrapped words gap)
    (unspaced : ∀ word ∈ words, Unspaced word) (filled : words ≠ []) :
    (Run.outside gap).comment = some (String.ofList (spaced words)) := by
  obtain ⟨comments, skipped, same⟩ := wrapped.gap unspaced
  have run := outside_gap skipped settled_nil
  rw [List.append_nil] at run
  have lines : (comments.map strip).filter (!·.isEmpty) ≠ [] := by
    intro none
    rw [none, ← led_spaced filled] at same
    cases same
  have whole : [' '].intercalate ((comments.map strip).filter (!·.isEmpty)) = spaced words := by
    rw [← led_spaced lines, ← led_spaced filled] at same
    exact List.tail_eq_of_cons_eq same
  rw [run, Run.comment]
  dsimp only
  rw [whole, if_neg (by simpa using lines)]

/-- A word of plain prose: letters, digits and underscores. -/
structure Word (text : List Char) : Prop where
  some : text ≠ []
  letters : ∀ c ∈ text, (c.isAlphanum || c == '_') = true

theorem letter_word {c : Char} (letter : (c.isAlphanum || c == '_') = true) :
    isWord c = true ∧ isBlank c = false ∧ c ≠ '-' := by
  rcases Bool.or_eq_true_iff.mp letter with alphanum | underscore
  · refine ⟨word_of_alphanum alphanum, ?_, ?_⟩
    · cases blank : isBlank c with
      | false => rfl
      | true => simp [blank_not_alphanum blank] at alphanum
    · rintro rfl
      cases alphanum
  · rw [beq_iff_eq] at underscore
    subst underscore
    decide

theorem Word.unspaced {text : List Char} (word : Word text) : Unspaced text :=
  ⟨word.some, fun c member => (letter_word (word.letters c member)).2.1⟩

/-- The words that document which values are reserved and which are open to others. -/
def sentenceWords (low high lowOthers highOthers : List Char) (words : List (List Char)) : List (List Char) :=
  ["values".toList, low ++ '-' :: high] ++ ["are", "reserved", "for", "definition", "by", "ASHRAE."].map String.toList ++
    words ++ ["values".toList, lowOthers ++ '-' :: highOthers] ++ ["may", "be", "used", "by", "others"].map String.toList

section
open Reserved Scan
variable {low high rest : List Char}

private theorem takes_space (rest : List Char) (stops : opens isBlank rest = false) : Takes someBlanks [' '] [' '] rest :=
  takes_someOf (by simp) (List.forall_mem_singleton.mpr rfl) stops

private theorem takes_nothing_blank (stops : opens isBlank rest = false) : Takes blanks [] [] rest :=
  takes_allOf (List.forall_mem_nil _) stops

def spanText (low high : List Char) : List Char := "values".toList ++ ' ' :: (low ++ '-' :: high)

def openText (low high : List Char) : List Char :=
  spanText low high ++ led (["may", "be", "used", "by", "others"].map String.toList)

theorem takes_valueSpan (first : Digits low) (second : Digits high) (stops : opens isDigit rest = false) :
    Takes Reserved.valueSpan (low, high) (spanText low high) rest := by
  have opening {digits : List Char} (proper : Digits digits) (more : List Char) : opens isBlank (digits ++ more) = false := by
    obtain ⟨c, digits, rfl⟩ := List.exists_cons_of_ne_nil proper.some
    exact digit_not_blank (proper.all c List.mem_cons_self)
  have parts : spanText low high = "values".toList ++ ([' '] ++ (low ++ ([] ++ (['-'] ++ ([] ++ (high ++ [])))))) := by
    simp only [spanText, List.cons_append, List.nil_append, List.append_nil]
  rw [Reserved.valueSpan, parts]
  apply (takes_literal _ _).bind
  apply Takes.bind (takes_space _ (by simpa using opening first _))
  apply Takes.bind (takes_someOf first.some first.all rfl)
  apply Takes.bind (takes_nothing_blank rfl)
  apply (takes_literal _ _).bind
  apply Takes.bind (takes_nothing_blank (by simpa using opening second _))
  exact Takes.bind (takes_someOf second.some second.all (by simpa using stops)) (.pure _ _)

theorem takes_phrase {words : List String} (each : ∀ word ∈ words.map String.toList, Unspaced word) (rest : List Char) :
    Takes (Reserved.phrase words) () (led (words.map String.toList)) rest := by
  induction words with
  | nil => exact .pure _ _
  | cons word words ih =>
    rw [List.map_cons] at each
    obtain ⟨own, others⟩ := List.forall_mem_cons.mp each
    have stops : opens isBlank (word.toList ++ led (words.map String.toList) ++ rest) = false := by
      rw [List.append_assoc]
      exact own.solid _
    rw [Reserved.phrase]
    apply Takes.bind (takes_space _ stops)
    exact (takes_literal _ _).bind (ih others)

theorem takes_openPart (first : Digits low) (second : Digits high) (rest : List Char) :
    Takes Reserved.openPart (low, high) (openText low high) rest := by
  rw [Reserved.openPart, openText, ← List.append_nil (led _)]
  apply Takes.bind (takes_valueSpan first second rfl)
  exact (takes_phrase (unspaced_of_all (by decide)) _).bind (.pure _ _)

private theorem number_missing {α : Type} {next after : List Char} {onward : List Char → Scan α} (word : Word next)
    (solid : opens isBlank after = false) (hyphen : opens (· == '-') after = false) :
    (do
      let low ← digits
      let _ ← blanks
      literal ['-']
      onward low : Scan α) (next ++ ' ' :: after) = none := by
  have split : next.takeWhile isDigit ++ next.dropWhile isDigit = next := List.takeWhile_append_dropWhile
  have stops : opens isDigit (next.dropWhile isDigit ++ ' ' :: after) = false := by
    have dropped := opens_dropWhile isDigit next
    cases left : next.dropWhile isDigit with
    | nil => rfl
    | cons c more =>
      rw [left] at dropped
      exact dropped
  rw [← split, List.append_assoc]
  by_cases some : next.takeWhile isDigit = []
  · rw [some]
    exact bind_missing (someOf_missing stops)
  · apply (takes_someOf some (fun c member => List.mem_takeWhile_imp member) stops).bind_missing
    cases left : next.dropWhile isDigit with
    | nil =>
      have space : Takes blanks [' '] [' '] after := takes_allOf (List.forall_mem_singleton.mpr rfl) solid
      exact space.bind_missing (bind_missing (literal_missing hyphen []))
    | cons c more =>
      have inside : c ∈ next := (List.dropWhile_suffix isDigit).subset (left ▸ List.mem_cons_self)
      obtain ⟨-, solid, other⟩ := letter_word (word.letters c inside)
      have apart : opens (· == '-') (c :: more ++ ' ' :: after) = false := beq_false_of_ne other
      have nothing : Takes blanks [] [] (c :: more ++ ' ' :: after) := takes_nothing_blank solid
      exact nothing.bind_missing (bind_missing (literal_missing apart []))

theorem valueSpan_missing {word next after : List Char} (own : Word word) (other : Word next)
    (solid : opens isBlank after = false) (hyphen : opens (· == '-') after = false) :
    Reserved.valueSpan (word ++ ' ' :: (next ++ ' ' :: after)) = none := by
  rw [Reserved.valueSpan]
  by_cases starts : "values".toList <+: word
  · obtain ⟨more, rfl⟩ := starts
    rw [List.append_assoc]
    apply (takes_literal _ _).bind_missing
    cases more with
    | cons c more =>
      apply bind_missing
      apply someOf_missing
      exact (letter_word (own.letters c (by simp))).2.1
    | nil =>
      exact (takes_space _ (other.unspaced.solid _)).bind_missing (number_missing other solid hyphen)
  · apply bind_missing
    have refused : "values".toList.isPrefixOf? (word ++ ' ' :: (next ++ ' ' :: after)) = none := by
      rw [Option.eq_none_iff_forall_not_mem]
      intro rest found
      have front : "values".toList <+: word ++ ' ' :: (next ++ ' ' :: after) :=
        ⟨rest, List.isPrefixOf?_eq_some_iff_append_eq.mp found⟩
      have own : word ++ [' '] <+: word ++ ' ' :: (next ++ ' ' :: after) := ⟨next ++ ' ' :: after, by simp⟩
      rcases Nat.lt_or_ge word.length "values".toList.length with short | long
      · have inside := List.prefix_of_prefix_length_le own front (by simpa using short)
        have space : ' ' ∈ "values".toList := inside.subset (by simp)
        exact absurd space (by decide)
      · exact starts (List.prefix_of_prefix_length_le front (List.prefix_append _ _) long)
    rw [Scan.literal, refused]

theorem takes_word {text : List Char} (own : Word text) (solid : opens isBlank rest = false) :
    Takes Reserved.word () (text ++ ([' '] ++ [])) rest := by
  rw [Reserved.word]
  apply Takes.bind (takes_someOf own.some (fun c member => (letter_word (own.letters c member)).1) rfl)
  exact (takes_space _ solid).bind (.pure _ _)

/-- Words in front of the part about others go on with a word, then a space, then neither white space nor a hyphen. -/
private theorem trailed_front {words : List (List Char)} (each : ∀ word ∈ words, Word word) (first : Digits low)
    (rest : List Char) : ∃ next after, trailed words ++ (openText low high ++ rest) = next ++ ' ' :: after ∧ Word next ∧
      opens isBlank after = false ∧ opens (· == '-') after = false := by
  induction words with
  | nil =>
    obtain ⟨c, digits, rfl⟩ := List.exists_cons_of_ne_nil first.some
    have digit := first.all c List.mem_cons_self
    have word : Word "values".toList := ⟨by decide, List.all_eq_true.mp (by decide)⟩
    refine ⟨"values".toList, c :: digits ++ '-' :: high ++
      led (["may", "be", "used", "by", "others"].map String.toList) ++ rest, ?_, word, digit_not_blank digit, ?_⟩
    · simp only [trailed, openText, spanText, List.flatMap_nil, List.nil_append, List.append_assoc, List.cons_append]
    · apply beq_false_of_ne
      rintro rfl
      cases digit
  | cons word words ih =>
    obtain ⟨own, others⟩ := List.forall_mem_cons.mp each
    obtain ⟨next, after, same, letters, -⟩ := ih others
    obtain ⟨c, more, rfl⟩ := List.exists_cons_of_ne_nil letters.some
    obtain ⟨-, solid, apart⟩ := letter_word (letters.letters c List.mem_cons_self)
    refine ⟨word, trailed words ++ (openText low high ++ rest), by simp [trailed], own, ?_⟩
    rw [same]
    exact ⟨solid, beq_false_of_ne apart⟩

/-- However many words come first, even words that look like it, the part about others is found after them. -/
theorem takes_afterWords {words : List (List Char)} (each : ∀ word ∈ words, Word word) (first : Digits low)
    (second : Digits high) (rest : List Char) {steps : Nat} (enough : words.length ≤ steps) :
    Takes (Reserved.afterWords steps) (low, high) (trailed words ++ openText low high) rest := by
  induction words generalizing steps with
  | nil =>
    have found := takes_openPart first second rest
    cases steps with
    | zero => exact found
    | succ steps => exact takes_first found
  | cons word words ih =>
    obtain ⟨own, others⟩ := List.forall_mem_cons.mp each
    obtain ⟨steps, rfl⟩ : ∃ n, steps = n + 1 := ⟨steps - 1, by simp only [List.length_cons] at enough; omega⟩
    have later := ih others (by simpa using enough)
    obtain ⟨next, after, same, letters, solid, apart⟩ := @trailed_front low high words others first rest
    have split : trailed (word :: words) ++ openText low high =
        word ++ ([' '] ++ []) ++ (trailed words ++ openText low high) := by
      simp [trailed]
    rw [Reserved.afterWords, split]
    apply takes_second
    · have missing := valueSpan_missing own letters solid apart
      rw [← same] at missing
      rw [Reserved.openPart]
      apply bind_missing
      simpa using missing
    · have passed : Takes Reserved.word () (word ++ ([' '] ++ [])) (trailed words ++ openText low high ++ rest) := by
        apply takes_word own
        rw [List.append_assoc, same]
        exact letters.unspaced.solid _
      exact passed.bind later

private theorem length_trailed (words : List (List Char)) : words.length ≤ (trailed words).length := by
  induction words with
  | nil => exact Nat.le_refl 0
  | cons word words ih =>
    simp only [trailed, List.flatMap_cons, List.length_append, List.length_cons, List.length_nil] at ih ⊢
    omega

private theorem search_front {text : List Char} {limits : Limits} (taken : Takes Reserved.sentence limits text [])
    (some : text ≠ []) : Reserved.search text = Option.some limits := by
  obtain ⟨c, rest, rfl⟩ := List.exists_cons_of_ne_nil some
  rw [Takes, List.append_nil] at taken
  rw [Reserved.search, taken]

section
variable {lowOthers highOthers : List Char} {words : List (List Char)}

/-- The sentence, cut where its parts begin. -/
private def sentenceText (low high lowOthers highOthers : List Char) (words : List (List Char)) : List Char :=
  spanText low high ++ (led (["are", "reserved", "for", "definition", "by", "ASHRAE."].map String.toList) ++
    ([' '] ++ ((trailed words ++ openText lowOthers highOthers) ++ [])))

private theorem spaced_sentence (low high lowOthers highOthers : List Char) (words : List (List Char)) :
    spaced (sentenceWords low high lowOthers highOthers words) = sentenceText low high lowOthers highOthers words := by
  have lists : sentenceWords low high lowOthers highOthers words = "values".toList :: (low ++ '-' :: high) ::
      (["are", "reserved", "for", "definition", "by", "ASHRAE."].map String.toList ++
        (words ++ "values".toList :: ([lowOthers ++ '-' :: highOthers] ++
          ["may", "be", "used", "by", "others"].map String.toList))) := by
    simp only [sentenceWords, List.append_assoc, List.cons_append, List.nil_append]
  rw [lists, spaced_cons, led, List.flatMap_cons, ← led, led_append, led_trailed, led_append]
  simp only [sentenceText, spanText, openText, led, List.flatMap_cons, List.flatMap_nil, List.append_assoc,
    List.cons_append, List.nil_append, List.append_nil]

private theorem takes_sentence (each : ∀ word ∈ words, Word word) (first : Digits low) (second : Digits high)
    (third : Digits lowOthers) (fourth : Digits highOthers) :
    Takes Reserved.sentence ⟨low, high, lowOthers, highOthers⟩ (sentenceText low high lowOthers highOthers words) [] := by
  have opening : opens isBlank (trailed words ++ openText lowOthers highOthers ++ [] ++ []) = false := by
    obtain ⟨next, after, same, letters, -⟩ := @trailed_front lowOthers highOthers words each third []
    rw [List.append_assoc, List.append_assoc, List.append_nil, same]
    exact letters.unspaced.solid _
  have enough : words.length ≤ (sentenceText low high lowOthers highOthers words ++ []).length := by
    have some := length_trailed words
    simp only [sentenceText, List.length_append]
    omega
  rw [Takes, Reserved.sentence]
  apply Takes.bind (takes_valueSpan first second rfl)
  apply Takes.bind (takes_phrase (unspaced_of_all (by decide)) _)
  apply Takes.bind (takes_allOf (List.forall_mem_singleton.mpr rfl) opening)
  exact (takes_afterWords each third fourth _ enough).bind (.pure _ _)

/-- The sentence is found with the digits of its limits. -/
theorem search_sentence (each : ∀ word ∈ words, Word word) (first : Digits low) (second : Digits high)
    (third : Digits lowOthers) (fourth : Digits highOthers) :
    Reserved.search (spaced (sentenceWords low high lowOthers highOthers words)) =
      some ⟨low, high, lowOthers, highOthers⟩ := by
  have filled : spanText low high ≠ [] := List.append_ne_nil_of_left_ne_nil (by decide) _
  rw [spaced_sentence]
  exact search_front (takes_sentence each first second third fourth) (List.append_ne_nil_of_left_ne_nil filled _)

end

end

theorem sentence_unspaced {low high lowOthers highOthers : List Char} {words : List (List Char)}
    (each : ∀ word ∈ words, Word word) (first : Digits low) (second : Digits high) (third : Digits lowOthers)
    (fourth : Digits highOthers) : ∀ word ∈ sentenceWords low high lowOthers highOthers words, Unspaced word := by
  have span {low high : List Char} (first : Digits low) (second : Digits high) : Unspaced (low ++ '-' :: high) := by
    refine ⟨by simp, ?_⟩
    rw [List.forall_mem_append, List.forall_mem_cons]
    exact ⟨fun c member => digit_not_blank (first.all c member), rfl, fun c member => digit_not_blank (second.all c member)⟩
  have values : ∀ word ∈ ["values".toList], Unspaced word := unspaced_of_all (by decide)
  rw [List.forall_mem_singleton] at values
  simp only [sentenceWords, List.forall_mem_append]
  refine ⟨⟨⟨⟨?_, unspaced_of_all (by decide)⟩, fun word listed => (each word listed).unspaced⟩, ?_⟩,
    unspaced_of_all (by decide)⟩
  · simp only [List.forall_mem_cons]
    exact ⟨values, span first second, nofun⟩
  · simp only [List.forall_mem_cons]
    exact ⟨values, span third fourth, nofun⟩

end TypeCatalog.Proofs
