import TypeCatalog.Proofs.NumberedItems
import TypeCatalog.Proofs.ReservedSentence
import TypeCatalog.Proofs.SourceCompleteness

/-! Documented spans of values, from the text to the record. A comment goes to a definition from the gap before its closing
brace or, failing that, from the gap before its header; and the spans in the record are those of the sentence in it. -/

namespace TypeCatalog.Proofs
open TypeCatalog.Normal Source Text

/-- Lexemes with the gaps in front of them. -/
abbrev Layout := List (List Char × Lexeme)

def Layout.placed (layout : Layout) : List Placed :=
  layout.map fun (gap, lexeme) => ⟨(Run.outside gap).comment, lexeme⟩

/-- A text consists of the lexemes of a layout with its gaps in front of them. -/
inductive Gapped : Layout → List Char → Prop where
  | nil {text : List Char} (ending : Ending text) : Gapped [] text
  | cons {gap text rest : List Char} {comments : List (List Char)} {lexeme : Lexeme} {layout : Layout}
      (skipped : Gap gap comments) (written : lexeme.Written text rest) (more : Gapped layout rest) :
      Gapped ((gap, lexeme) :: layout) (gap ++ (text ++ rest))

theorem Gapped.path {layout : Layout} {text : List Char} (gapped : Gapped layout text) (offset : Nat) :
    ∃ last, Path ⟨offset, text⟩ layout.placed last ∧ Ending last.rest := by
  induction gapped generalizing offset with
  | nil ending => exact ⟨_, .here _, ending⟩
  | @cons gap text rest comments lexeme layout skipped written _ ih =>
    obtain ⟨last, path, ending⟩ := ih (offset + gap.length + text.length)
    have run := outside_gap skipped settled_nil
    rw [List.append_nil] at run
    have comment : (Run.outside gap).comment = commentOf comments := by
      rw [run]
      rfl
    exact ⟨last, .step ⟨gap, comments, text, skipped, comment, written, rfl, rfl⟩ path, ending⟩

theorem Gapped.laid {layout : Layout} {text : List Char} (gapped : Gapped layout text) : Laid layout.placed text :=
  gapped.path 0

/-- Words are spread over the comments before the closing brace, or over those before the header if there is no comment
before the brace. -/
inductive Bearing (words : List (List Char)) : Layout → Prop where
  | closing {layout : Layout} {gap : List Char} (wrapped : Wrapped words gap) : Bearing words (layout ++ [(gap, .closing)])
  | header {layout : Layout} {name first gap : List Char} (wrapped : Wrapped words first)
      (bare : (Run.outside gap).comment = none) :
      Bearing words ((first, .header name) :: (layout ++ [(gap, .closing)]))

/-- The first and the last lexeme of a definition with items, and how its comment comes from theirs. -/
theorem listed_frame {definition : Definition} {placed : List Placed} (spelled : DefinitionSpelled definition placed)
    (listed : definition.items ≠ none) : ∃ name front closing middle,
      placed = ⟨front, .header name⟩ :: (middle ++ [⟨closing, .closing⟩]) ∧
      definition.comment = closing.or front := by
  cases spelled with
  | @mk name primitive shape numbers placed front _ _ shaped =>
    cases shaped with
    | @mk _ _ _ _ _ lexeme before sizes limits _ own _ _ _ _ list =>
      cases list with
      | absent => contradiction
      | @present _ _ _ _ items opening closing =>
        refine ⟨name, front, closing,
          numbers ++ (before ++ ⟨own, lexeme⟩ :: (sizes ++ (limits ++ ⟨opening, .opening⟩ :: items))), ?_, rfl⟩
        simp only [List.append_assoc, List.cons_append]

theorem Bearing.comment {words : List (List Char)} {layout : Layout} {definition : Definition}
    (bearing : Bearing words layout) (spelled : DefinitionSpelled definition layout.placed)
    (listed : definition.items ≠ none) (unspaced : ∀ word ∈ words, Unspaced word) (filled : words ≠ []) :
    definition.comment = some (String.ofList (spaced words)) := by
  obtain ⟨name, front, closing, middle, same, comment⟩ := listed_frame spelled listed
  rw [comment]
  cases bearing with
  | closing wrapped =>
    rw [Layout.placed, List.map_append, ← List.cons_append] at same
    obtain ⟨-, last⟩ := List.append_inj' same rfl
    cases last
    rw [wrapped.comment unspaced filled, Option.some_or]
  | header wrapped bare =>
    rw [Layout.placed, List.map_cons, List.map_append] at same
    obtain ⟨first, rest⟩ := List.cons.inj same
    obtain ⟨-, last⟩ := List.append_inj' rest rfl
    cases first
    cases last
    rw [bare, Option.none_or, wrapped.comment unspaced filled]

/-- A limit in the sentence: digits that are few enough to be read, and their number. -/
structure Limit where
  digits : List Char
  number : Int
  numeral : Numeral digits number

/-- What the sentence says: the limits of the standard values and of the values of others, and words between them. -/
structure Documented where
  low : Limit
  high : Limit
  lowOthers : Limit
  highOthers : Limit
  words : List (List Char)
  plain : ∀ word ∈ words, Word word

namespace Documented
variable (documented : Documented)

def sentence : List (List Char) :=
  sentenceWords documented.low.digits documented.high.digits documented.lowOthers.digits documented.highOthers.digits
    documented.words

def isOrdered : Bool :=
  documented.low.number ≤ documented.high.number && documented.lowOthers.number ≤ documented.highOthers.number

def spans : Option (Data × Data) :=
  if documented.isOrdered then
    some (.valueSpan documented.low.number documented.high.number,
      .valueSpan documented.lowOthers.number documented.highOthers.number)
  else none

theorem spans_natural {low high lowOthers highOthers : Nat} (first : documented.low.number = low)
    (second : documented.high.number = high) (third : documented.lowOthers.number = lowOthers)
    (fourth : documented.highOthers.number = highOthers) :
    documented.spans = if high < low || highOthers < lowOthers then none
      else some (.valueSpan low high, .valueSpan lowOthers highOthers) := by
  have order : documented.isOrdered = !(decide (high < low) || decide (highOthers < lowOthers)) := by
    rw [isOrdered, first, second, third, fourth, Bool.not_or, ← decide_not, ← decide_not]
    simp
  rw [spans, order, first, second, third, fourth]
  cases decide (high < low) || decide (highOthers < lowOthers) <;> rfl

theorem unspaced : ∀ word ∈ documented.sentence, Unspaced word :=
  sentence_unspaced documented.plain documented.low.numeral.proper documented.high.numeral.proper
    documented.lowOthers.numeral.proper documented.highOthers.numeral.proper

end Documented

theorem Limit.read (limit : Limit) : ∃ n : Nat, readNat? limit.digits = some n ∧ limit.number = n := by
  obtain ⟨digits, number, numeral⟩ := limit
  exact ⟨digitsValue digits, if_pos numeral.short, numeral.value⟩

section
variable {tables : WellKnown} {draft : Draft} {name : String} {shape : Shape} {first : Item} {items rest : List Item}
  {documented : Documented}

/-- The spans of the sentence are read if it is the only comment. -/
theorem reservedSpans_sentence (noted : draft.comment = commentData (some (String.ofList (spaced documented.sentence))))
    (quiet : ∀ item ∈ items, item.comment = none) :
    reservedSpans draft (Item.listDraft items) = .ok documented.spans := by
  have others : (items.map Item.comment).filterMap (·.filter (!·.isEmpty)) = [] := by
    rw [List.filterMap_eq_nil_iff, List.forall_mem_map]
    intro item listed
    rw [quiet item listed]
    rfl
  have filled : (String.ofList (spaced documented.sentence)).isEmpty = false := by
    have clean := spaced_clean (by simp [Documented.sentence, sentenceWords]) documented.unspaced
    simpa [String.isEmpty_iff] using clean.some
  have found := search_sentence documented.plain documented.low.numeral.proper documented.high.numeral.proper
    documented.lowOthers.numeral.proper documented.highOthers.numeral.proper
  obtain ⟨low, first, lowest⟩ := documented.low.read
  obtain ⟨high, second, highest⟩ := documented.high.read
  obtain ⟨lowOthers, third, lowestOthers⟩ := documented.lowOthers.read
  obtain ⟨highOthers, fourth, highestOthers⟩ := documented.highOthers.read
  have spans := documented.spans_natural lowest highest lowestOthers highestOthers
  rw [reservedSpans, draft_comments noted, comments_read fun _ => rfl, List.filterMap_cons, others, Option.filter,
    filled, ok_bind]
  simp only [Bool.not_false, if_true, List.map_cons, List.map_nil, String.toList_ofList, List.intercalate_singleton]
  rw [Documented.sentence, found]
  dsimp only
  rw [first, second, third, fourth, spans]
  dsimp only
  split <;> rfl

/-- The type of an enumeration that is open to more values and has no entry in the tables has the limits of its own numbers,
and the spans that are documented. -/
theorem type_opened (carried : Carries draft name shape) (known : Kind.ofTypeName? shape.type = some .enumerated)
    (isOpen : shape.extensible = true) (listed : shape.items = some (first :: rest)) (numbered : Numbered (first :: rest))
    (unlisted : (tables.enumerated.find? name).filter Data.holds = none) {spans : Option (Data × Data)}
    (reserved : reservedSpans draft (Item.listDraft (first :: rest)) = .ok spans) :
    ∃ data low high, type tables draft = .ok data ∧ IsLeast (numbersOf (first :: rest)) low ∧
      IsGreatest (numbersOf (first :: rest)) high ∧ data.find? "range" = some (.limits (.int low) (.int (high + 1))) ∧
      data.find? "standard" = spans.map (·.1) ∧
      data.find? "proprietary" = some ((spans.map (·.2)).getD unspecified) := by
  obtain ⟨sorted, -, entries⟩ := numbered_arranged numbered
  obtain ⟨low, high, extent, least, greatest⟩ := extent_numbers numbered
  have values := entries "constant"
  let record := [("base", Data.text "enumerated"), ("values", .array (sorted.map (numberedEntry "constant")))] ++
    [("extensible", .bool true), ("range", .limits (.int low) (.int (high + 1)))] ++ spanFields spans
  have made : enumerated tables draft first.draft (Item.listDraft rest) = .ok (.record record) := by
    rw [Item.listDraft] at values reserved
    rw [enumerated, extent, values, carried.name, carried.extensible, isOpen, entryFor_text, unlisted]
    simp only [ok_bind, Data.holds, Bool.not_true, Bool.false_eq_true, if_false, reserved]
    cases spans <;> rfl
  refine ⟨withSeries draft.series (.record record), low, high, ?_, least, greatest, ?_⟩
  · rw [type_values carried known listed, made]
    rfl
  · have looked {key : String} (other : key ≠ "series") := withSeries_find draft.series record other
    rw [looked (by decide), looked (by decide), looked (by decide)]
    cases spans <;> exact ⟨rfl, rfl, rfl⟩

end

theorem Gapped.read {layout : Layout} {definition : Definition} {kind : Kind} {text : String}
    (gapped : Gapped layout (unifyLineEnds text.toList)) (usual : ∀ c ∈ unifyLineEnds text.toList, ¬ Foreign c)
    (spelled : DefinitionSpelled definition layout.placed) (known : Kind.ofTypeName? definition.type = some kind)
    (simple : kind.isSimple = true) : parse text = .ok [definition] := by
  have single : Spelled [definition] layout.placed := by
    have whole := Spelled.cons spelled .nil
    rwa [List.append_nil] at whole
  exact headed_read single (simple_free spelled known simple) gapped.laid usual

/-- However the sentence that documents its spans is broken into the lines of a comment, the record of an enumeration has
these spans, or an empty one if they are not in order; and its range is that of its values. -/
theorem normalize_documented {tables : WellKnown} {definition : Definition} {layout : Layout} {text : String}
    {documented : Documented} {items : List Item} (spelled : DefinitionSpelled definition layout.placed)
    (gapped : Gapped layout (unifyLineEnds text.toList)) (usual : ∀ c ∈ unifyLineEnds text.toList, ¬ Foreign c)
    (known : Kind.ofTypeName? definition.type = some .enumerated) (isOpen : definition.extensible = true)
    (listed : definition.items = some items) (quiet : ∀ item ∈ items, item.comment = none)
    (unlisted : (tables.enumerated.find? definition.name).filter Data.holds = none)
    (bearing : Bearing documented.sentence layout) :
    parse text = .ok [definition] ∧ ∃ (record type : Data) (low high : Int),
      normalize none tables definition.draft = .ok (.made record) ∧ record.find? "type" = some type ∧
      IsLeast (numbersOf items) low ∧ IsGreatest (numbersOf items) high ∧
      type.find? "range" = some (.limits (.int low) (.int (high + 1))) ∧
      type.find? "standard" = documented.spans.map (·.1) ∧
      type.find? "proprietary" = some ((documented.spans.map (·.2)).getD (.valueSpan 1 0)) := by
  have comment := bearing.comment spelled (by simp [listed]) documented.unspaced
    (by simp [Documented.sentence, sentenceWords])
  have accepted := gapped.read usual spelled known rfl
  have parsed : Parsed definition := ⟨text, _, accepted, List.mem_singleton_self _⟩
  have fits : DefinitionFits plainRules definition := parsed.fits
  obtain ⟨kind, found, -, filled, each⟩ := fits.shape.listed listed
  obtain rfl := Option.some.inj (known.symm.trans found)
  obtain ⟨first, rest, rfl⟩ := List.exists_cons_of_ne_nil filled
  have carried := (definition_draft definition).toCarries
  have noted := carried.comment
  rw [comment] at noted
  obtain ⟨type, low, high, typed, least, greatest, range, standard, proprietary⟩ :=
    type_opened carried known isOpen listed (numbered_of_simple rfl each) unlisted (reservedSpans_sentence noted quiet)
  obtain ⟨record, normalized, shown⟩ := normalize_of_type typed
  exact ⟨accepted, record, type, low, high, normalized, shown, least, greatest, range, standard, proprietary⟩

private def lampLines : List Char :=
  ' ' :: ("-- values 0-63 are reserved\n--\n-- for definition by ASHRAE. values above values \n" ++
    "--64-255 may be used by others\n").toList

private def lampText : String :=
  "Lamp::= ENUMERATED \x7b off (7), ... -- values 0-63 are reserved\n--\n" ++
    "-- for definition by ASHRAE. values above values \n--64-255 may be used by others\n\x7d"

private def lampLayout : Layout :=
  [([], .header "Lamp".toList), ([' '], .enumerated), ([' '], .opening), ([' '], .itemName "off".toList),
    ([' '], .itemNumber ['7']), ([], .comma), ([' '], .ellipsis), (lampLines, .closing)]

private def lampLimit (digits : List Char) (proper : digits.all isDigit = true) (filled : digits ≠ [])
    (short : digits.length ≤ digitLimit) : Limit where
  digits
  number := digitsValue digits
  numeral := ⟨⟨filled, List.all_eq_true.mp proper⟩, short, rfl⟩

private def lampSplit : Documented where
  low := lampLimit "0".toList rfl (by decide) (by decide)
  high := lampLimit "63".toList rfl (by decide) (by decide)
  lowOthers := lampLimit "64".toList rfl (by decide) (by decide)
  highOthers := lampLimit "255".toList rfl (by decide) (by decide)
  words := ["values".toList, "above".toList]
  plain := by
    rw [List.forall_mem_cons, List.forall_mem_singleton]
    exact ⟨⟨by decide, List.all_eq_true.mp (by decide)⟩, by decide, List.all_eq_true.mp (by decide)⟩

private theorem lampLines_wrapped : Wrapped lampSplit.sentence lampLines := by
  have space : ∀ c ∈ [' '], isBlank c = true ∧ c ≠ '\n' := List.forall_mem_singleton.mpr ⟨rfl, by decide⟩
  have nothing : ∀ c ∈ ([] : List Char), isBlank c = true ∧ c ≠ '\n' := List.forall_mem_nil _
  have last := @Wrapped.line ["64-255".toList, "may".toList, "be".toList, "used".toList, "by".toList, "others".toList] _ []
    [] [] _ nofun nothing nothing (.done (List.forall_mem_nil _))
  have middle := @Wrapped.line ["for".toList, "definition".toList, "by".toList, "ASHRAE.".toList, "values".toList,
    "above".toList, "values".toList] _ [] [' '] [' '] _ nofun space space last
  have empty := @Wrapped.line [] _ [] [] [] _ nofun nothing nothing middle
  exact @Wrapped.line ["values".toList, "0-63".toList, "are".toList, "reserved".toList] _ [' '] [' '] [] _
    (List.forall_mem_singleton.mpr rfl) space nothing empty

private theorem gapped_text {gap rest : List Char} {comments : List (List Char)} {lexeme : Lexeme} {layout : Layout}
    (skipped : Gap gap comments) (proper : lexeme.Proper) (ends : opens lexeme.continues rest = false)
    (more : Gapped layout rest) : Gapped ((gap, lexeme) :: layout) (gap ++ (lexeme.text ++ rest)) :=
  .cons skipped ⟨proper, spread_text _, ends⟩ more

private theorem lampLayout_gapped : Gapped lampLayout (unifyLineEnds lampText.toList) := by
  have same : unifyLineEnds lampText.toList =
      lampLayout.foldr (fun (gap, lexeme) rest => gap ++ (lexeme.text ++ rest)) [] := by decide +kernel
  have space : Gap [' '] [] := .blank rfl .empty
  obtain ⟨_, lines, -⟩ := lampLines_wrapped.gap lampSplit.unspaced
  rw [same]
  refine gapped_text .empty rfl rfl ?_
  refine gapped_text space trivial rfl ?_
  refine gapped_text space trivial rfl ?_
  refine gapped_text space rfl rfl ?_
  refine gapped_text space ⟨by decide, List.all_eq_true.mp rfl⟩ rfl ?_
  refine gapped_text .empty trivial rfl ?_
  refine gapped_text space trivial rfl ?_
  exact gapped_text lines trivial rfl (.nil (.closed .empty))

private theorem lamp_spelled : ∃ definition, DefinitionSpelled definition lampLayout.placed ∧
    definition.type = "Enumerated" ∧ definition.extensible = true ∧ definition.name = "Lamp" ∧
    definition.items = some [{ name := "off", number := some 7 }] := by
  have nothing : (Run.outside []).comment = none := by decide +kernel
  have space : (Run.outside [' ']).comment = none := by decide +kernel
  have numeral : Numeral ['7'] 7 := ⟨⟨by decide, List.all_eq_true.mp rfl⟩, by decide, rfl⟩
  have item : ItemSpelled .enumerated { name := "off", number := some 7 }
      [⟨none, .itemName "off".toList⟩, ⟨none, .itemNumber ['7']⟩] :=
    @ItemSpelled.value .enumerated "off".toList _ _ none none rfl rfl numeral
  have list := @ListSpelled.present Kind.enumerated.typeName _ _ _ _ none (Run.outside lampLines).comment rfl rfl
    (.ellipsis none none item (by decide))
  have shaped := ShapeSpelled.mk none .absent .enumerated .absent .absent list
  have spelled := @DefinitionSpelled.mk "Lamp".toList _ _ _ _ none rfl .absent shaped
  rw [Layout.placed, lampLayout]
  simp only [List.map_cons, List.map_nil, nothing, space]
  exact ⟨_, spelled, rfl, rfl, rfl, rfl⟩

/-- The words in the middle may be such as the sentence has itself. -/
theorem normalize_documented_wrapped : ∃ (definition : Definition) (record type : Data),
    parse lampText = .ok [definition] ∧ normalize none .standard definition.draft = .ok (.made record) ∧
    record.find? "type" = some type ∧ type.find? "range" = some (.limits (.int 7) (.int 8)) ∧
    type.find? "standard" = some (.valueSpan 0 63) ∧ type.find? "proprietary" = some (.valueSpan 64 255) := by
  obtain ⟨definition, spelled, typed, isOpen, named, listed⟩ := lamp_spelled
  have usual : ∀ c ∈ unifyLineEnds lampText.toList, ¬ Foreign c := all_allowed.mp (by decide +kernel)
  have bearing : Bearing lampSplit.sentence (lampLayout.dropLast ++ [(lampLines, .closing)]) := .closing lampLines_wrapped
  obtain ⟨accepted, record, type, low, high, normalized, found, least, greatest, range, standard, proprietary⟩ :=
    @normalize_documented .standard _ _ _ _ _ spelled lampLayout_gapped usual (by rw [typed]; rfl) isOpen listed (by simp)
      (by rw [named]; decide) bearing
  have alone {n : Int} (member : n ∈ numbersOf [{ name := "off", number := some 7 }]) : n = 7 := by
    obtain ⟨item, listed, own⟩ := member
    rw [List.mem_singleton] at listed
    subst listed
    exact (Option.some.inj own).symm
  rw [alone least.1, alone greatest.1] at range
  exact ⟨definition, record, type, accepted, normalized, found, range, standard, proprietary⟩

end TypeCatalog.Proofs
