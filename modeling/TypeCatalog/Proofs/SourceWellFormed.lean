import TypeCatalog.Proofs.SourceVerdicts

/-! The form of definitions that are read from text, at every depth of their items: names, numbers, ranges and comments
are such, and items stand only where a kind has them. -/

namespace TypeCatalog.Proofs
open Source Text

/-- The first bound is below the second or has the same value. -/
def AtMost (low high : Bound) : Prop := low.lt high = true ∨ low.data.levelWith high.data = true

/-- A line of text that starts and ends with something else than white space. -/
structure Clean (text : List Char) : Prop where
  some : text ≠ []
  line : '\n' ∉ text
  front : opens isBlank text = false
  back : opens isBlank text.reverse = false

/-- What names, numbers, bounds and comments have to satisfy besides their form. -/
structure Rules where
  name : List Char → Prop := fun _ => True
  reference : List Char → Prop := fun _ => True
  number : Int → Prop := fun _ => True
  bound : Bound → Prop := fun _ => True
  comment : List Char → Prop := Clean

section
variable (rules : Rules)

def NumberFits (number : Option Int) : Prop := ∀ n, number = some n → 0 ≤ n ∧ rules.number n

def SeriesFits (series : Option Series) : Prop := ∀ count, series = some (.counted count) → 0 ≤ count ∧ rules.number count

def RangeFits (range : Option Range) : Prop :=
  ∀ r, range = some r → rules.bound r.min ∧ rules.bound r.max ∧ AtMost r.min r.max

def CommentFits (comment : Option String) : Prop := ∀ text, comment = some text → rules.comment text.toList

mutual

inductive ShapeFits : Shape → Prop where
  | mk {shape : Shape} (type : isTypeName shape.type.toList = true) (reference : rules.reference shape.type.toList)
      (series : SeriesFits rules shape.series) (size : RangeFits rules shape.size)
      (range : RangeFits rules shape.range) (list : ListFits shape.type shape.items shape.extensible)
      (comment : CommentFits rules shape.comment) : ShapeFits shape

/-- Items that a type may have. Only an item list can be open to more, and that of a sequence cannot. -/
inductive ListFits : String → Option (List Item) → Bool → Prop where
  | absent (type : String) : ListFits type none false
  | present {type : String} {kind : Kind} {items : List Item} {extensible : Bool}
      (known : Kind.ofTypeName? type = some kind) (structured : (kind.isSimple || kind.isComplex) = true)
      (filled : items ≠ []) (closed : extensible = true → kind ≠ .sequence)
      (each : ∀ item ∈ items, ItemFits kind item) : ListFits type (some items) extensible

inductive ItemFits : Kind → Item → Prop where
  | value {kind : Kind} {name : String} {number : Int} {comment : Option String} (simple : kind.isSimple = true)
      (proper : isItemName name.toList = true) (numbered : NumberFits rules (some number))
      (commented : CommentFits rules comment) : ItemFits kind { name, number := some number, comment }
  | typed {kind : Kind} {name : String} {tag : Option Int} {optional : Bool} {shape : Shape}
      (complex : kind.isComplex = true) (proper : isItemName name.toList = true) (tagged : NumberFits rules tag)
      (shaped : ShapeFits shape) :
      ItemFits kind
        { name, number := tag, optional, type := some shape.type, series := shape.series, size := shape.size
          range := shape.range, items := shape.items, extensible := shape.extensible, comment := shape.comment }

end

structure DefinitionFits (definition : Definition) : Prop where
  proper : isTypeName definition.name.toList = true
  name : rules.name definition.name.toList
  primitive : NumberFits rules definition.primitive
  shape : ShapeFits rules definition.toShape

end

private theorem magnitude_total (low high : Magnitude) (order : high.lt low = false) :
    low.lt high = true ∨ low.same high = true := by
  cases low <;> cases high <;> simp_all [Magnitude.lt, Magnitude.same]
  omega

/-- Numbers have a place on the line, so one that is not below another is at least as high. -/
private theorem atMost_of_not_lt {low high : Bound} (lower : low.data.place?.isSome = true)
    (upper : high.data.place?.isSome = true) (order : high.lt low = false) : AtMost low high := by
  obtain ⟨least, first⟩ := Option.isSome_iff_exists.mp lower
  obtain ⟨greatest, second⟩ := Option.isSome_iff_exists.mp upper
  simp only [AtMost, Bound.lt, Data.isLess, Data.levelWith, first, second] at order ⊢
  exact magnitude_total least greatest order

private theorem ofRatio_ne_nan (negative : Bool) (numerator denominator : Nat) :
    Double.ofRatio negative numerator denominator ≠ .nan := by
  rw [Double.ofRatio.eq_1]
  split
  · exact nofun
  · extract_lets exponent
    split
    extract_lets mantissa
    generalize (if mantissa = Nat.pow 2 53 then (Nat.pow 2 52, exponent + 1) else (mantissa, exponent)) = rounded
    obtain ⟨mantissa, exponent⟩ := rounded
    dsimp only
    split <;> exact nofun

private theorem toDouble_ne_nan (decimal : Decimal) : decimal.toDouble ≠ .nan := by
  simp only [Decimal.toDouble]
  split
  · exact nofun
  · split
    · exact nofun
    · split <;> exact ofRatio_ne_nan _ _ _

private theorem place_of_ne_nan {value : Double} (number : value ≠ .nan) : value.magnitude?.isSome = true := by
  cases value with
  | nan => contradiction
  | infinite | finite => rfl

private theorem Denotes.place {text : List Char} {bound : Bound} (denotes : Denotes text bound) :
    bound.data.place?.isSome = true := by
  cases denotes with
  | lowest | highest | whole => rfl
  | @fraction mark whole places negative sign number tail =>
    exact place_of_ne_nan (toDouble_ne_nan _)

private theorem opens_start {accepts : Char → Bool} {front text : List Char} (starts : front <+: text)
    (refused : opens accepts text = false) : opens accepts front = false := by
  obtain ⟨rest, rfl⟩ := starts
  cases front with
  | nil => rfl
  | cons c front => exact refused

private theorem strip_start (text : List Char) : strip text <+: text.dropWhile isBlank := by
  rw [← List.reverse_suffix, strip, List.reverse_reverse]
  exact List.dropWhile_suffix isBlank

private theorem strip_clean {text : List Char} (line : '\n' ∉ text) (some : strip text ≠ []) : Clean (strip text) := by
  refine ⟨some, ?_, opens_start (strip_start text) (opens_dropWhile isBlank text), ?_⟩
  · intro member
    exact line ((List.dropWhile_suffix isBlank).subset ((strip_start text).subset member))
  · rw [strip, List.reverse_reverse]
    exact opens_dropWhile isBlank _

private theorem Clean.join {first second : List Char} (left : Clean first) (right : Clean second) :
    Clean (first ++ ' ' :: second) := by
  refine ⟨by simp, ?_, ?_, ?_⟩
  · simp [left.line, right.line]
  · obtain ⟨c, more, rfl⟩ := List.exists_cons_of_ne_nil left.some
    exact left.front
  · obtain ⟨c, more, same⟩ := List.exists_cons_of_ne_nil (List.reverse_ne_nil_iff.mpr right.some)
    have back := right.back
    rw [same] at back
    rw [List.reverse_append, List.reverse_cons, same]
    exact back

theorem intercalate_clean {lines : List (List Char)} (some : lines ≠ []) (clean : ∀ line ∈ lines, Clean line) :
    Clean ([' '].intercalate lines) := by
  induction lines with
  | nil => contradiction
  | cons line lines ih =>
    obtain ⟨first, others⟩ := List.forall_mem_cons.mp clean
    cases lines with
    | nil => simpa [List.intercalate] using first
    | cons next lines => simpa [List.intercalate] using first.join (ih (by simp) others)

private theorem Gap.clean {gap : List Char} {comments : List (List Char)} (skipped : Gap gap comments) {text : String}
    (comment : commentOf comments = some text) : Clean text.toList := by
  have lines : ∀ line ∈ comments, '\n' ∉ line := by
    clear comment
    induction skipped with
    | empty => simp
    | blank _ _ ih => exact ih
    | comment line _ ih => exact List.forall_mem_cons.mpr ⟨line, ih⟩
  simp only [commentOf, Run.comment] at comment
  split at comment
  · cases comment
  next filled =>
    cases comment
    rw [String.toList_ofList]
    refine intercalate_clean (by simpa using filled) ?_
    intro line member
    obtain ⟨stripped, some⟩ := List.mem_filter.mp member
    obtain ⟨source, known, rfl⟩ := List.mem_map.mp stripped
    exact strip_clean (lines source known) (by simpa using some)

theorem Path.clean {cursor next : Cursor} {placed : List Placed} (path : Path cursor placed next) :
    ∀ p ∈ placed, ∀ text, p.comment = some text → Clean text.toList := by
  induction path with
  | here => simp
  | step first _ ih =>
    refine List.forall_mem_cons.mpr ⟨?_, ih⟩
    obtain ⟨gap, comments, text, skipped, same, -⟩ := first
    intro comment present
    exact skipped.clean (same ▸ present)

/-- What is known of everything that is read. -/
def plainRules : Rules := {}

/-- Rules that are kept by everything that is read. -/
class Admits (rules : Rules) : Prop where
  name (text : List Char) : rules.name text
  reference (text : List Char) : rules.reference text
  number {digits : List Char} {number : Int} (numeral : Numeral digits number) : rules.number number
  bound {text : List Char} {bound : Bound} (denotes : Denotes text bound) (short : legible text = true) :
    rules.bound bound
  comment {text : List Char} (clean : Clean text) : rules.comment text

instance : Admits plainRules := ⟨fun _ => trivial, fun _ => trivial, fun _ => trivial, fun _ _ => trivial, id⟩

private theorem comment_or {rules : Rules} {first second : Option String} (left : CommentFits rules first)
    (right : CommentFits rules second) : CommentFits rules (first.or second) := by
  cases first with
  | none => exact right
  | some text => exact left

/-- The comments in front of lexemes are clean lines. -/
def Commented (placed : List Placed) : Prop := ∀ p ∈ placed, ∀ text, p.comment = some text → Clean text.toList

section
variable {rules : Rules} [Admits rules]

private theorem numeral_fits {digits : List Char} {number : Int} (numeral : Numeral digits number) :
    0 ≤ number ∧ rules.number number := by
  refine ⟨?_, Admits.number numeral⟩
  rw [numeral.value]
  exact Int.natCast_nonneg _

private theorem range_fits {range : Range} {lexeme : Lexeme} (spelled : RangeSpelled range lexeme) :
    RangeFits rules (some range) := by
  rintro _ ⟨⟩
  cases spelled with
  | single denotes short =>
    have known : rules.bound _ := Admits.bound denotes short
    exact ⟨known, known, atMost_of_not_lt denotes.place denotes.place (bound_lt_self _)⟩
  | pair lower short upper brief order =>
    exact ⟨Admits.bound lower short, Admits.bound upper brief, atMost_of_not_lt lower.place upper.place order⟩

private theorem size_fits {size : Option Range} {placed : List Placed} (spelled : SizeSpelled size placed) :
    RangeFits rules size := by
  cases spelled with
  | absent => exact nofun
  | bare _ _ spelled => exact range_fits spelled
  | enclosed _ _ _ spelled => exact range_fits spelled

private theorem limit_fits {range : Option Range} {placed : List Placed} (spelled : LimitSpelled range placed) :
    RangeFits rules range := by
  cases spelled with
  | absent => exact nofun
  | present _ spelled => exact range_fits spelled

private theorem number_fits {lexeme : List Char → Lexeme} {number : Option Int} {placed : List Placed}
    (spelled : NumberSpelled lexeme number placed) : NumberFits rules number := by
  cases spelled with
  | absent => exact nofun
  | present _ numeral =>
    rintro _ ⟨⟩
    exact numeral_fits numeral

private theorem series_fits {series : Option Series} {placed : List Placed} (spelled : SeriesSpelled series placed) :
    SeriesFits rules series := by
  cases spelled with
  | absent | unbounded => exact nofun
  | counted _ numeral =>
    rintro _ ⟨⟩
    exact numeral_fits numeral

private theorem base_proper {type : String} {lexeme : Lexeme} (spelled : BaseSpelled type lexeme) :
    isTypeName type.toList = true := by
  cases spelled with
  | any | enumerated | bitString | octetString => decide
  | name proper => rwa [String.toList_ofList]

private theorem Commented.fits {placed : List Placed} (commented : Commented placed) {p : Placed} (member : p ∈ placed) :
    CommentFits rules p.comment := by
  intro text given
  exact Admits.comment (commented p member text given)

set_option linter.unusedSectionVars false in
mutual

private theorem shape_fits {shape : Shape} {placed : List Placed} (spelled : ShapeSpelled shape placed)
    (commented : Commented placed) : ShapeFits rules shape := by
  match spelled with
  | .mk comment repeated base sized limited listed =>
    obtain ⟨list, closing⟩ := list_fits listed fun p member => commented p (by simp [member])
    exact ⟨base_proper base, Admits.reference _, series_fits repeated, size_fits sized, limit_fits limited, list, closing⟩
termination_by structural spelled

private theorem list_fits {type : String} {list : Option Read.ItemList} {placed : List Placed}
    (spelled : ListSpelled type list placed) (commented : Commented placed) :
    ListFits rules type (list.map (·.items)) (list.any (·.extensible)) ∧
      CommentFits rules (list.bind (·.comment)) := by
  match spelled with
  | .absent type => exact ⟨.absent type, nofun⟩
  | .present opening closing known structured spelled =>
    obtain ⟨some, closed, each⟩ := items_fits spelled structured fun p member => commented p (by simp [member])
    exact ⟨.present known structured some closed each, @Commented.fits _ _ _ commented ⟨closing, .closing⟩ (by simp)⟩
termination_by structural spelled

private theorem items_fits {kind : Kind} {items : List Item} {extensible : Bool} {placed : List Placed}
    (spelled : ItemsSpelled kind items extensible placed) (structured : (kind.isSimple || kind.isComplex) = true)
    (commented : Commented placed) :
    items ≠ [] ∧ (extensible = true → kind ≠ .sequence) ∧ ∀ item ∈ items, ItemFits rules kind item := by
  match spelled with
  | .last first =>
    have item := item_fits first structured commented
    exact ⟨by simp, nofun, by simpa using item⟩
  | .ellipsis comma dots first extensible =>
    have item := item_fits first structured fun p member => commented p (by simp [member])
    exact ⟨by simp, fun _ => extensible, by simpa using item⟩
  | .more comma first others =>
    have item := item_fits first structured fun p member => commented p (by simp [member])
    obtain ⟨-, closed, each⟩ := items_fits others structured fun p member => commented p (by simp [member])
    exact ⟨by simp, closed, List.forall_mem_cons.mpr ⟨item, each⟩⟩
termination_by structural spelled

private theorem item_fits {kind : Kind} {item : Item} {placed : List Placed} (spelled : ItemSpelled kind item placed)
    (structured : (kind.isSimple || kind.isComplex) = true) (commented : Commented placed) :
    ItemFits rules kind item := by
  match spelled with
  | .value comment between proper simple numeral =>
    refine .value simple (by rwa [String.toList_ofList]) ?_ (commented.fits List.mem_cons_self)
    rintro _ ⟨⟩
    exact numeral_fits numeral
  | @ItemSpelled.typed _ name tag shape _ _ _ _ comment proper complex tagged shaped ended =>
    have front : CommentFits rules comment := commented.fits List.mem_cons_self
    obtain ⟨type, reference, series, size, range, list, closing⟩ :=
      shape_fits shaped fun p member => commented p (by simp [member])
    have whole : ShapeFits rules { shape with comment := shape.comment.or comment } :=
      ⟨type, reference, series, size, range, list, comment_or closing front⟩
    exact .typed (by simpa [complex] using structured) (by rwa [String.toList_ofList]) (number_fits tagged) whole
termination_by structural spelled

end

theorem definition_fits {definition : Definition} {placed : List Placed} (spelled : DefinitionSpelled definition placed)
    (commented : Commented placed) : DefinitionFits rules definition := by
  obtain ⟨comment, proper, numbered, shaped⟩ := spelled
  have front : CommentFits rules comment := commented.fits List.mem_cons_self
  have shape : ShapeFits rules _ := shape_fits shaped fun p member => commented p (by simp [member])
  obtain ⟨type, reference, series, size, range, list, closing⟩ := shape
  exact ⟨by rwa [String.toList_ofList], Admits.name _, number_fits numbered,
    type, reference, series, size, range, list, comment_or closing front⟩

end

/-- Every definition of an accepted text is well formed, and so is every item, however deep it is. -/
theorem accepted_wellFormed {text : String} {definitions : List Definition} (accepted : parse text = .ok definitions) :
    ∀ definition ∈ definitions, DefinitionFits plainRules definition := by
  obtain ⟨placed, spelled, last, path, -⟩ := accepted_laid accepted
  have commented : Commented placed := path.clean
  clear path accepted
  induction spelled with
  | nil => simp
  | cons first _ ih =>
    refine List.forall_mem_cons.mpr ⟨?_, ih ?_⟩
    · exact definition_fits first fun p member => commented p (by simp [member])
    · exact fun p member => commented p (by simp [member])

private def flags : Definition where
  name := "Flags"
  type := "BitString"
  items := some [{ name := "on", number := some 0 }, { name := "dim-down", number := some 7 }]
  comment := some "of a lamp"

theorem accepted_wellFormed_flags : DefinitionFits plainRules flags :=
  @accepted_wellFormed "Flags ::= BIT STRING \x7b on (0), dim-down (7) -- of a lamp\n\x7d" [flags] (by cbv) flags
    List.mem_cons_self

end TypeCatalog.Proofs
