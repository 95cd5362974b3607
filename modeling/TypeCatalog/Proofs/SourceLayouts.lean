import TypeCatalog.Proofs.Numerals
import TypeCatalog.Proofs.SourceRefusals
import TypeCatalog.Proofs.SourceWellFormed

/-! Well formed definitions can be written. Their lexemes are laid out with a space in front of each, or with the comment
that belongs there. -/

namespace TypeCatalog.Proofs
open Source Text

/-- Bounds that can be written exactly: the infinities and integers with few enough digits. -/
inductive Exact : Bound → Prop where
  | lowest : Exact .lowest
  | highest : Exact .highest
  | int {n : Int} (short : (natDigits n.natAbs).length ≤ digitLimit) : Exact (.int n)

/-- What definitions have to satisfy to be spelled: their names are free and their integers have few enough digits. -/
def spellable : Rules where
  name name := isFreeName name = true
  reference name := isFreeReference name = true
  number n := (natDigits n.natAbs).length ≤ digitLimit
  bound := Exact
  comment _ := True

/-- What they have to satisfy to be written with their comments: these have only characters that the notation uses. -/
def writable : Rules :=
  { spellable with comment := fun text => Clean text ∧ ∀ c ∈ text, ¬ Foreign c }

private theorem alphanum_usual {c : Char} (letter : c.isAlphanum = true) : ¬ Foreign c := by
  have point := alphanum_point letter
  exact fun foreign => foreign.2.2 (by omega)

private theorem natDigits_proper (n : Nat) : Digits (natDigits n) :=
  ⟨Nat.toDigits_ne_nil, fun c member => digit_of_ascii (natDigits_ascii n c member)⟩

private theorem numeral_written {n : Int} (natural : 0 ≤ n) (short : (natDigits n.natAbs).length ≤ digitLimit) :
    Numeral (natDigits n.natAbs) n := by
  refine ⟨natDigits_proper _, short, ?_⟩
  rw [digitsValue_natDigits]
  omega

private def Part.isUsual : Part → Bool
  | .chars text => text.all isAllowed
  | .blanks | .someBlanks => true

private theorem usual_iff {text : List Char} : Part.isUsual (.chars text) = true ↔ ∀ c ∈ text, ¬ Foreign c :=
  all_allowed

private theorem natDigits_usual (n : Nat) : Part.isUsual (.chars (natDigits n)) = true :=
  usual_iff.mpr fun c member => alphanum_usual (by simp [Char.isAlphanum, natDigits_ascii n c member])

private theorem exact_denotes {bound : Bound} (exact' : Exact bound) :
    ∃ text, Denotes text bound ∧ legible text = true ∧ Part.isUsual (.chars text) = true := by
  cases exact' with
  | lowest => exact ⟨_, .lowest, rfl, rfl⟩
  | highest => exact ⟨_, .highest, rfl, rfl⟩
  | @int n short =>
    have usual := natDigits_usual n.natAbs
    have proper := natDigits_proper n.natAbs
    have value := digitsValue_natDigits n.natAbs
    by_cases negative : n < 0
    · have denotes := Denotes.whole .minus proper
      rw [value, if_pos rfl, show -(n.natAbs : Int) = n by omega] at denotes
      refine ⟨_, denotes, ?_, ?_⟩
      · rw [legible_whole .minus proper]
        simpa using short
      · exact usual_iff.mpr (List.forall_mem_cons.mpr ⟨by decide, usual_iff.mp usual⟩)
    · have denotes := Denotes.whole .absent proper
      rw [value, if_neg (by decide), show (n.natAbs : Int) = n by omega] at denotes
      refine ⟨_, denotes, ?_, usual⟩
      rw [legible_whole .absent proper]
      simpa using short

/-- A spelling of a lexeme with as little white space as it needs. -/
def Lexeme.text (lexeme : Lexeme) : List Char :=
  lexeme.parts.flatMap fun
    | .chars text => text
    | .blanks => []
    | .someBlanks => [' ']

theorem spread_text (parts : List Part) :
    Spread parts (parts.flatMap fun
      | .chars text => text
      | .blanks => []
      | .someBlanks => [' ']) := by
  induction parts with
  | nil => exact .nil
  | cons part parts ih =>
    cases part with
    | chars text => exact .chars text ih
    | blanks => exact @Spread.blanks parts [] _ (by simp) ih
    | someBlanks => exact @Spread.someBlanks parts [' '] _ (by simp) (List.forall_mem_singleton.mpr rfl) ih

private def gapText : Option String → List Char
  | none => [' ']
  | some comment => '-' :: '-' :: (comment.toList ++ ['\n'])

private def layout (placed : List Placed) : List Char :=
  placed.flatMap fun p => gapText p.comment ++ p.lexeme.text

private structure Tidy (placed : Placed) : Prop where
  proper : placed.lexeme.Proper
  usual : ∀ c ∈ placed.lexeme.text, ¬ Foreign c
  comment : CommentFits writable placed.comment

private theorem strip_of_clean {text : List Char} (clean : Clean text) : strip text = text := by
  have back := (stops_at clean.back).2
  rw [strip, (stops_at clean.front).2, back, List.reverse_reverse]

private theorem gapText_gap {comment : Option String} (fits : CommentFits writable comment) :
    ∃ comments, Gap (gapText comment) comments ∧ comment = commentOf comments := by
  cases comment with
  | none => exact ⟨[], .blank rfl .empty, rfl⟩
  | some text =>
    have clean := (fits text rfl).1
    refine ⟨[text.toList], .comment clean.line .empty, ?_⟩
    have some : text.toList.isEmpty = false := by simpa using clean.some
    simp [commentOf, Run.comment, strip_of_clean clean, some, List.intercalate]

private theorem continues_gap (lexeme : Lexeme) (comment : Option String) (rest : List Char) :
    opens lexeme.continues (gapText comment ++ rest) = false := by
  cases comment <;> cases lexeme <;> rfl

private theorem layout_path {placed : List Placed} (tidy : ∀ p ∈ placed, Tidy p) (offset : Nat) :
    ∃ last, Path ⟨offset, layout placed⟩ placed last ∧ last.rest = [] := by
  induction placed generalizing offset with
  | nil => exact ⟨_, .here _, rfl⟩
  | cons p placed ih =>
    obtain ⟨first, others⟩ := List.forall_mem_cons.mp tidy
    obtain ⟨comments, gap, same⟩ := gapText_gap first.comment
    obtain ⟨last, path, ending⟩ := ih others (offset + (gapText p.comment).length + p.lexeme.text.length)
    have ends : opens p.lexeme.continues (layout placed) = false := by
      cases placed with
      | nil => rfl
      | cons next placed =>
        have gap := continues_gap p.lexeme next.comment (next.lexeme.text ++ layout placed)
        rwa [← List.append_assoc] at gap
    refine ⟨last, .step ⟨gapText p.comment, comments, p.lexeme.text, gap, same, ?_, ?_, rfl⟩ path, ending⟩
    · exact ⟨first.proper, spread_text _, ends⟩
    · exact List.append_assoc ..

private theorem layout_usual {placed : List Placed} (tidy : ∀ p ∈ placed, Tidy p) : ∀ c ∈ layout placed, ¬ Foreign c := by
  intro c member
  obtain ⟨p, listed, inside⟩ := List.mem_flatMap.mp member
  have neat := tidy p listed
  rcases List.mem_append.mp inside with gap | inner
  · cases present : p.comment with
    | none =>
      rw [present] at gap
      obtain rfl := List.mem_singleton.mp gap
      decide
    | some comment =>
      have usual := (neat.comment comment present).2
      rw [present] at gap
      simp only [gapText, List.mem_cons, List.mem_append, List.not_mem_nil, or_false] at gap
      rcases gap with rfl | rfl | inner | rfl
      · decide
      · decide
      · exact usual c inner
      · decide
  · exact neat.usual c inner

private theorem atMost_not_lt {low high : Bound} (order : AtMost low high) : high.lt low = false := by
  simp only [AtMost, Bound.lt, Data.isLess, Data.levelWith] at order ⊢
  cases first : low.data.place? with
  | none => simp
  | some least =>
    cases second : high.data.place? with
    | none => simp
    | some greatest =>
      simp only [first, second] at order ⊢
      cases least <;> cases greatest <;> simp_all [Magnitude.lt, Magnitude.same]
      omega

private theorem tidy_of {lexeme : Lexeme} {comment : Option String} (proper : lexeme.Proper)
    (fits : CommentFits writable comment) (usual : lexeme.parts.all Part.isUsual = true) : Tidy ⟨comment, lexeme⟩ := by
  refine ⟨proper, ?_, fits⟩
  intro c member
  obtain ⟨part, listed, inside⟩ := List.mem_flatMap.mp member
  cases part with
  | chars text => exact usual_iff.mp (List.all_eq_true.mp usual _ listed) c inside
  | blanks => cases inside
  | someBlanks =>
    obtain rfl := List.mem_singleton.mp inside
    decide

private theorem tidy_fixed {lexeme : Lexeme} (proper : lexeme.Proper) (usual : lexeme.parts.all Part.isUsual = true) :
    Tidy ⟨none, lexeme⟩ :=
  tidy_of proper nofun usual

private theorem name_usual {name : List Char} (chars : ∀ c ∈ name, c.isAlphanum = true ∨ c = '-') :
    Part.isUsual (.chars name) = true := by
  refine usual_iff.mpr fun c member => ?_
  rcases chars c member with letter | rfl
  · exact alphanum_usual letter
  · decide

private theorem number_written {lexeme : List Char → Lexeme} {number : Option Int}
    (fits : NumberFits writable number) (proper : ∀ digits, Digits digits → (lexeme digits).Proper)
    (usual : ∀ digits, Part.isUsual (.chars digits) = true → (lexeme digits).parts.all Part.isUsual = true) :
    ∃ placed, NumberSpelled lexeme number placed ∧ ∀ p ∈ placed, Tidy p := by
  cases number with
  | none => exact ⟨[], .absent, by simp⟩
  | some n =>
    obtain ⟨natural, short⟩ := fits n rfl
    refine ⟨_, .present none (numeral_written natural short), List.forall_mem_singleton.mpr ?_⟩
    exact tidy_fixed (proper _ (natDigits_proper _)) (usual _ (natDigits_usual _))

private theorem series_written {series : Option Series} (fits : SeriesFits writable series) :
    ∃ placed, SeriesSpelled series placed ∧ ∀ p ∈ placed, Tidy p := by
  cases series with
  | none => exact ⟨[], .absent, by simp⟩
  | some series =>
    cases series with
    | unbounded => exact ⟨_, .unbounded none, List.forall_mem_singleton.mpr (tidy_fixed nofun (by decide))⟩
    | counted n =>
      obtain ⟨natural, short⟩ := fits n rfl
      refine ⟨_, .counted none (numeral_written natural short), List.forall_mem_singleton.mpr (tidy_fixed ?_ ?_)⟩
      · rintro _ ⟨⟩
        exact natDigits_proper _
      · simp only [Lexeme.parts, List.all_cons, List.all_nil, natDigits_usual]
        decide

private theorem range_written {range : Range} (fits : RangeFits writable (some range)) :
    ∃ lexeme, RangeSpelled range lexeme ∧ Tidy ⟨none, lexeme⟩ := by
  obtain ⟨lower, upper, order⟩ := fits range rfl
  obtain ⟨low, least, short, usual⟩ := exact_denotes lower
  obtain ⟨high, greatest, brief, plain⟩ := exact_denotes upper
  refine ⟨_, .pair least short greatest brief (atMost_not_lt order), tidy_fixed ⟨⟨_, least⟩, ?_⟩ ?_⟩
  · rintro _ ⟨⟩
    exact ⟨_, greatest⟩
  · simp only [Lexeme.parts, List.all_cons, List.all_nil, usual, plain]
    decide

private theorem size_written {size : Option Range} (fits : RangeFits writable size) :
    ∃ placed, SizeSpelled size placed ∧ ∀ p ∈ placed, Tidy p := by
  cases size with
  | none => exact ⟨[], .absent, by simp⟩
  | some range =>
    obtain ⟨lexeme, spelled, tidy⟩ := range_written fits
    have word : Tidy ⟨none, .size false⟩ := tidy_fixed trivial (by decide)
    exact ⟨_, .bare none none spelled, by simp [word, tidy]⟩

private theorem limit_written {range : Option Range} (fits : RangeFits writable range) :
    ∃ placed, LimitSpelled range placed ∧ ∀ p ∈ placed, Tidy p := by
  cases range with
  | none => exact ⟨[], .absent, by simp⟩
  | some range =>
    obtain ⟨lexeme, spelled, tidy⟩ := range_written fits
    exact ⟨_, .present none spelled, by simp [tidy]⟩

private theorem optional_written (isOptional : Bool) :
    ∃ placed, OptionalSpelled isOptional placed ∧ ∀ p ∈ placed, Tidy p := by
  cases isOptional with
  | false => exact ⟨[], .absent, by simp⟩
  | true => exact ⟨_, .present none, List.forall_mem_singleton.mpr (tidy_fixed trivial (by decide))⟩

private theorem items_written {kind : Kind} {items : List Item} {extensible : Bool} (filled : items ≠ [])
    (closed : extensible = true → kind ≠ .sequence)
    (each : ∀ item ∈ items, ∃ placed, ItemSpelled kind item placed ∧ ∀ p ∈ placed, Tidy p) :
    ∃ placed, ItemsSpelled kind items extensible placed ∧ ∀ p ∈ placed, Tidy p := by
  have comma : Tidy ⟨none, .comma⟩ := tidy_fixed trivial (by decide)
  have dots : Tidy ⟨none, .ellipsis⟩ := tidy_fixed trivial (by decide)
  induction items with
  | nil => contradiction
  | cons item items ih =>
    obtain ⟨⟨front, first, neat⟩, others⟩ := List.forall_mem_cons.mp each
    cases items with
    | nil =>
      cases extensible with
      | false => exact ⟨front, .last first, neat⟩
      | true =>
        refine ⟨_, .ellipsis none none first (closed rfl), List.forall_mem_append.mpr ⟨neat, ?_⟩⟩
        simp [comma, dots]
    | cons next items =>
      obtain ⟨rest, spelled, tidy⟩ := ih (by simp) others
      refine ⟨_, .more none first spelled, List.forall_mem_append.mpr ⟨neat, ?_⟩⟩
      exact List.forall_mem_cons.mpr ⟨comma, tidy⟩

private theorem itemName_tidy {name : List Char} {comment : Option String} (proper : isItemName name = true)
    (fits : CommentFits writable comment) : Tidy ⟨comment, .itemName name⟩ := by
  refine tidy_of proper fits ?_
  simp only [Lexeme.parts, List.all_cons, List.all_nil, name_usual (itemName_chars proper), Bool.and_true]

private theorem value_written {kind : Kind} {name : String} {number : Int} {comment : Option String}
    (simple : kind.isSimple = true) (proper : isItemName name.toList = true)
    (numbered : NumberFits writable (some number)) (commented : CommentFits writable comment) :
    ∃ placed, ItemSpelled kind { name, number := some number, comment } placed ∧ ∀ p ∈ placed, Tidy p := by
  obtain ⟨natural, short⟩ := numbered number rfl
  have spelled := ItemSpelled.value comment none proper simple (numeral_written natural short)
  rw [String.ofList_toList] at spelled
  have digits : Tidy ⟨none, .itemNumber (natDigits number.natAbs)⟩ := by
    refine tidy_fixed (natDigits_proper _) ?_
    simp only [Lexeme.parts, List.all_cons, List.all_nil, natDigits_usual]
    decide
  exact ⟨_, spelled, by simp [itemName_tidy proper commented, digits]⟩

mutual

/-- The comment of a type is left out: it goes in front of the name of what has the type. -/
private theorem shape_written {shape : Shape} (fits : ShapeFits writable shape) :
    ∃ placed, ShapeSpelled { shape with comment := none } placed ∧ ∀ p ∈ placed, Tidy p := by
  match fits with
  | .mk type reference series size range list comment =>
    obtain ⟨before, repeated, first⟩ := series_written series
    obtain ⟨sizes, sized, second⟩ := size_written size
    obtain ⟨limits, limited, third⟩ := limit_written range
    obtain ⟨items, rest, same, extensible, closing, listed, last⟩ := list_written list
    have base := BaseSpelled.name type
    rw [String.ofList_toList] at base
    have name : Tidy ⟨none, .typeName shape.type.toList⟩ := by
      refine tidy_fixed type ?_
      simp only [Lexeme.parts, List.all_cons, List.all_nil, name_usual (typeName_chars type), Bool.and_true]
    have spelled := ShapeSpelled.mk none repeated base sized limited listed
    rw [same, extensible, closing] at spelled
    refine ⟨_, spelled, ?_⟩
    simp only [List.forall_mem_append, List.forall_mem_cons]
    exact ⟨first, name, second, third, last⟩
termination_by structural fits

private theorem list_written {type : String} {items : Option (List Item)} {extensible : Bool}
    (fits : ListFits writable type items extensible) :
    ∃ (list : Option Read.ItemList) (placed : List Placed), list.map (·.items) = items ∧
      list.any (·.extensible) = extensible ∧ list.bind (·.comment) = none ∧ ListSpelled type list placed ∧
      ∀ p ∈ placed, Tidy p := by
  match fits with
  | .absent type => exact ⟨none, [], rfl, rfl, rfl, .absent type, by simp⟩
  | @ListFits.present _ _ kind items extensible known structured filled closed each =>
    have spelled : ∀ item ∈ items, ∃ placed, ItemSpelled kind item placed ∧ ∀ p ∈ placed, Tidy p :=
      fun item member => item_written (each item member)
    obtain ⟨placed, spelled, tidy⟩ := items_written filled closed spelled
    have opening : Tidy ⟨none, .opening⟩ := tidy_fixed trivial (by decide)
    have closing : Tidy ⟨none, .closing⟩ := tidy_fixed trivial (by decide)
    refine ⟨some ⟨items, extensible, none⟩, _, rfl, rfl, rfl, .present none none known structured spelled, ?_⟩
    simp only [List.forall_mem_append, List.forall_mem_cons]
    exact ⟨opening, tidy, closing, by simp⟩
termination_by structural fits

private theorem item_written {kind : Kind} {item : Item} (fits : ItemFits writable kind item) :
    ∃ placed, ItemSpelled kind item placed ∧ ∀ p ∈ placed, Tidy p := by
  match fits with
  | .value simple proper numbered commented => exact value_written simple proper numbered commented
  | @ItemFits.typed _ _ name tag isOptional shape complex proper tagged shaped =>
    have commented : CommentFits writable shape.comment := by
      cases shaped
      assumption
    obtain ⟨tags, numbered, first⟩ := @number_written .contextTag _ tagged (fun _ => id) fun digits usual => by
      simp only [Lexeme.parts, List.all_cons, List.all_nil, usual]
      decide
    obtain ⟨placed, spelled, second⟩ := shape_written shaped
    obtain ⟨after, ended, third⟩ := optional_written isOptional
    have single : kind.isSimple = false := by
      cases kind <;> first | rfl | cases complex
    have item := ItemSpelled.typed shape.comment proper single numbered spelled ended
    rw [String.ofList_toList] at item
    refine ⟨_, item, ?_⟩
    simp only [List.forall_mem_append, List.forall_mem_cons]
    exact ⟨itemName_tidy proper commented, first, second, third⟩
termination_by structural fits

end

private theorem definition_written {definition : Definition} (fits : DefinitionFits writable definition) :
    ∃ placed, DefinitionSpelled definition placed ∧ ∀ p ∈ placed, Tidy p := by
  obtain ⟨proper, -, primitive, shaped⟩ := fits
  have commented : CommentFits writable definition.comment := by
    cases shaped
    assumption
  obtain ⟨numbers, numbered, first⟩ := @number_written .application _ primitive (fun _ => id) fun digits usual => by
    simp only [Lexeme.parts, List.all_cons, List.all_nil, usual]
    decide
  obtain ⟨placed, spelled, second⟩ := shape_written shaped
  have whole := DefinitionSpelled.mk definition.comment proper numbered spelled
  rw [String.ofList_toList] at whole
  have header : Tidy ⟨definition.comment, .header definition.name.toList⟩ := by
    refine tidy_of proper commented ?_
    simp only [Lexeme.parts, List.all_cons, List.all_nil, name_usual (typeName_chars proper)]
    decide
  refine ⟨_, whole, ?_⟩
  simp only [List.forall_mem_append, List.forall_mem_cons]
  exact ⟨header, first, second⟩

private theorem spelled_written {definitions : List Definition}
    (fits : ∀ definition ∈ definitions, DefinitionFits writable definition) :
    ∃ placed, Spelled definitions placed ∧ ∀ p ∈ placed, Tidy p := by
  induction definitions with
  | nil => exact ⟨[], .nil, by simp⟩
  | cons definition definitions ih =>
    obtain ⟨first, others⟩ := List.forall_mem_cons.mp fits
    obtain ⟨front, spelled, neat⟩ := definition_written first
    obtain ⟨rest, more, tidy⟩ := ih others
    exact ⟨front ++ rest, .cons spelled more, List.forall_mem_append.mpr ⟨neat, tidy⟩⟩

/-- Definitions that can be written are spelled by some lexemes, and these are laid out in some text. -/
theorem layout_exists {definitions : List Definition}
    (fits : ∀ definition ∈ definitions, DefinitionFits writable definition) :
    ∃ (placed : List Placed) (text : String), Spelled definitions placed ∧ Laid placed (unifyLineEnds text.toList) ∧
      ∀ c ∈ unifyLineEnds text.toList, ¬ Foreign c := by
  obtain ⟨placed, spelled, tidy⟩ := spelled_written fits
  obtain ⟨last, path, ending⟩ := layout_path tidy 0
  have usual := layout_usual tidy
  refine ⟨placed, String.ofList (layout placed), spelled, ?_⟩
  have plain : '\r' ∉ layout placed := fun member => usual '\r' member (by decide)
  rw [String.toList_ofList, unify_plain plain]
  exact ⟨⟨last, path, ending ▸ .closed .empty⟩, usual⟩

private theorem numbers_free {lexeme : List Char → Lexeme} {number : Option Int} {placed : List Placed}
    (spelled : NumberSpelled lexeme number placed) (free : ∀ digits, (lexeme digits).isFree = true) :
    AllFree placed := by
  cases spelled with
  | absent => exact nofun
  | present => exact List.forall_mem_singleton.mpr (free _)

private theorem series_free {series : Option Series} {placed : List Placed} (spelled : SeriesSpelled series placed) :
    AllFree placed := by
  cases spelled with
  | absent => exact nofun
  | unbounded | counted => exact List.forall_mem_singleton.mpr rfl

private theorem range_free {range : Range} {lexeme : Lexeme} (spelled : RangeSpelled range lexeme) :
    lexeme.isFree = true := by
  cases spelled <;> rfl

private theorem size_free {size : Option Range} {placed : List Placed} (spelled : SizeSpelled size placed) :
    AllFree placed := by
  cases spelled with
  | absent => exact nofun
  | bare _ _ spelled | enclosed _ _ _ spelled =>
    simp only [AllFree, List.forall_mem_cons]
    exact ⟨rfl, range_free spelled, by simp [Lexeme.isFree]⟩

private theorem limit_free {range : Option Range} {placed : List Placed} (spelled : LimitSpelled range placed) :
    AllFree placed := by
  cases spelled with
  | absent => exact nofun
  | present _ spelled => exact List.forall_mem_singleton.mpr (range_free spelled)

private theorem optional_free {isOptional : Bool} {placed : List Placed} (spelled : OptionalSpelled isOptional placed) :
    AllFree placed := by
  cases spelled with
  | absent => exact nofun
  | present => exact List.forall_mem_singleton.mpr rfl

private theorem base_free {type : String} {lexeme : Lexeme} (spelled : BaseSpelled type lexeme)
    (free : isFreeReference type.toList = true) : lexeme.isFree = true := by
  cases spelled with
  | any | enumerated | bitString | octetString => rfl
  | name => rwa [String.toList_ofList] at free

private theorem typed_fits {kind : Kind} {item : Item} {type : String} (fits : ItemFits spellable kind item)
    (typed : item.type = some type) :
    isFreeReference type.toList = true ∧ ListFits spellable type item.items item.extensible := by
  cases fits with
  | value => cases typed
  | typed _ _ _ shaped =>
    cases typed
    obtain ⟨-, reference, -, -, -, list, -⟩ := shaped
    exact ⟨reference, list⟩

mutual

private theorem shape_free {shape : Shape} {placed : List Placed} (spelled : ShapeSpelled shape placed)
    (reference : isFreeReference shape.type.toList = true)
    (fits : ListFits spellable shape.type shape.items shape.extensible) : AllFree placed := by
  match spelled with
  | .mk comment repeated base sized limited listed =>
    simp only [AllFree, List.forall_mem_append, List.forall_mem_cons]
    exact ⟨series_free repeated, base_free base reference, size_free sized, limit_free limited, list_free listed fits⟩
termination_by structural spelled

private theorem list_free {type : String} {list : Option Read.ItemList} {placed : List Placed}
    (spelled : ListSpelled type list placed)
    (fits : ListFits spellable type (list.map (·.items)) (list.any (·.extensible))) : AllFree placed := by
  match spelled with
  | .absent type => exact nofun
  | @ListSpelled.present _ _ items _ _ opening closing known structured spelled =>
    have each : ∀ item ∈ items, ∃ kind, ItemFits spellable kind item := by
      cases fits with
      | present _ _ _ _ each => exact fun item member => ⟨_, each item member⟩
    simp only [AllFree, List.forall_mem_append, List.forall_mem_cons]
    exact ⟨rfl, items_free spelled each, rfl, nofun⟩
termination_by structural spelled

private theorem items_free {kind : Kind} {items : List Item} {extensible : Bool} {placed : List Placed}
    (spelled : ItemsSpelled kind items extensible placed)
    (fits : ∀ item ∈ items, ∃ kind, ItemFits spellable kind item) : AllFree placed := by
  match spelled with
  | .last first => exact item_free first (fits _ List.mem_cons_self)
  | .ellipsis comma dots first extensible =>
    simp only [AllFree, List.forall_mem_append, List.forall_mem_cons]
    exact ⟨item_free first (fits _ List.mem_cons_self), rfl, rfl, nofun⟩
  | .more comma first others =>
    simp only [AllFree, List.forall_mem_append, List.forall_mem_cons]
    exact ⟨item_free first (fits _ List.mem_cons_self), rfl,
      items_free others fun item member => fits item (List.mem_cons_of_mem _ member)⟩
termination_by structural spelled

private theorem item_free {kind : Kind} {item : Item} {placed : List Placed} (spelled : ItemSpelled kind item placed)
    (fits : ∃ kind, ItemFits spellable kind item) : AllFree placed := by
  obtain ⟨other, fits⟩ := fits
  match spelled with
  | .value .. =>
    simp only [AllFree, List.forall_mem_cons]
    exact ⟨rfl, rfl, nofun⟩
  | .typed comment proper complex tagged shaped ended =>
    obtain ⟨reference, list⟩ := typed_fits fits rfl
    simp only [AllFree, List.forall_mem_append, List.forall_mem_cons]
    exact ⟨rfl, numbers_free tagged fun _ => rfl, shape_free shaped reference list, optional_free ended⟩
termination_by structural spelled

end

theorem spelled_free {definitions : List Definition} {placed : List Placed}
    (fits : ∀ definition ∈ definitions, DefinitionFits spellable definition) (spelled : Spelled definitions placed) :
    AllFree placed := by
  induction spelled with
  | nil => exact nofun
  | cons first _ ih =>
    obtain ⟨fit, others⟩ := List.forall_mem_cons.mp fits
    refine List.forall_mem_append.mpr ⟨?_, ih others⟩
    obtain ⟨-, name, -, ⟨-, reference, -, -, -, list, -⟩⟩ := fit
    cases first with
    | mk comment proper numbered shaped =>
      rw [String.toList_ofList] at name
      simp only [List.forall_mem_append, List.forall_mem_cons]
      exact ⟨name, numbers_free numbered fun _ => rfl, shape_free shaped reference list⟩

private theorem values_free {kind : Kind} {items : List Item} {extensible : Bool} {placed : List Placed}
    (simple : kind.isSimple = true) (spelled : ItemsSpelled kind items extensible placed) : AllFree placed := by
  have value {item : Item} {placed : List Placed} (spelled : ItemSpelled kind item placed) : AllFree placed := by
    cases spelled with
    | value =>
      simp only [AllFree, List.forall_mem_cons]
      exact ⟨rfl, rfl, nofun⟩
    | typed _ _ complex => simp [simple] at complex
  match spelled with
  | .last first => exact value first
  | .ellipsis comma dots first extensible =>
    simp only [AllFree, List.forall_mem_append, List.forall_mem_cons]
    exact ⟨value first, rfl, rfl, nofun⟩
  | .more comma first others =>
    simp only [AllFree, List.forall_mem_append, List.forall_mem_cons]
    exact ⟨value first, rfl, values_free simple others⟩
termination_by structural spelled

private theorem simple_shape_free {shape : Shape} {kind : Kind} {placed : List Placed} (spelled : ShapeSpelled shape placed)
    (known : Kind.ofTypeName? shape.type = some kind) (simple : kind.isSimple = true) : AllFree placed := by
  have called : kind.typeName = shape.type := by
    rw [Kind.ofTypeName?] at known
    simpa using List.find?_some known
  have reference : isFreeReference shape.type.toList = true := by
    rw [← called]
    cases kind with
    | enumerated | bitString => decide
    | _ => cases simple
  cases spelled with
  | @mk _ _ _ _ _ _ _ _ _ rest _ repeated base sized limited listed =>
    have list : AllFree rest := by
      cases listed with
      | absent => exact nofun
      | present opening closing found structured spelled =>
        obtain rfl := Option.some.inj (known.symm.trans found)
        simp only [AllFree, List.forall_mem_append, List.forall_mem_cons]
        exact ⟨rfl, values_free simple spelled, rfl, nofun⟩
    simp only [AllFree, List.forall_mem_append, List.forall_mem_cons]
    exact ⟨series_free repeated, base_free base reference, size_free sized, limit_free limited, list⟩

/-- Behind the header of an enumeration or a bit string all names are free. -/
theorem simple_free {definition : Definition} {kind : Kind} {placed : List Placed}
    (spelled : DefinitionSpelled definition placed) (known : Kind.ofTypeName? definition.type = some kind)
    (simple : kind.isSimple = true) : AllFree placed.tail := by
  cases spelled with
  | mk comment proper numbered shaped =>
    rw [List.tail_cons, AllFree, List.forall_mem_append]
    exact ⟨numbers_free numbered fun _ => rfl, simple_shape_free shaped known simple⟩

end TypeCatalog.Proofs
