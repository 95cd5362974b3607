import TypeCatalog.Source.Parse
import TypeCatalog.Proofs.SourcePaths

/-! The grammar of the notation as a relation between definitions and the lexemes that spell them. The relation leaves
open what a definition leaves open: keyword or name of a type, a size in parentheses or not, one bound for two, and the
digits of a number. The comment of a definition or an item is that in front of its closing brace, else that in front of
its name. -/

namespace TypeCatalog.Proofs
open Source Text

/-- Digits that are few enough to be read, and their number. -/
structure Numeral (digits : List Char) (number : Int) : Prop where
  proper : Digits digits
  short : digits.length ≤ digitLimit
  value : number = digitsValue digits

/-- Whether the text of a bound can be read: an integer has a limited number of digits, a number with a point has not. -/
def legible (text : List Char) : Bool := text.contains '.' || text.countP isDigit ≤ digitLimit

inductive RangeSpelled : Range → Lexeme → Prop where
  | single {text : List Char} {bound : Bound} (denotes : Denotes text bound) (short : legible text = true) :
      RangeSpelled ⟨bound, bound⟩ (.constraint text none)
  | pair {low high : List Char} {min max : Bound} (lower : Denotes low min) (short : legible low = true)
      (upper : Denotes high max) (brief : legible high = true) (order : max.lt min = false) :
      RangeSpelled ⟨min, max⟩ (.constraint low (some high))

inductive SeriesSpelled : Option Series → List Placed → Prop where
  | absent : SeriesSpelled none []
  | unbounded (comment : Option String) : SeriesSpelled (some .unbounded) [⟨comment, .series none⟩]
  | counted {digits : List Char} {count : Int} (comment : Option String) (numeral : Numeral digits count) :
      SeriesSpelled (some (.counted count)) [⟨comment, .series (some digits)⟩]

inductive BaseSpelled : String → Lexeme → Prop where
  | any : BaseSpelled Kind.any.typeName .anyType
  | enumerated : BaseSpelled Kind.enumerated.typeName .enumerated
  | bitString : BaseSpelled Kind.bitString.typeName .bitString
  | octetString : BaseSpelled Kind.octetString.typeName .octetString
  | name {name : List Char} (proper : isTypeName name = true) : BaseSpelled (String.ofList name) (.typeName name)

inductive SizeSpelled : Option Range → List Placed → Prop where
  | absent : SizeSpelled none []
  | bare {range : Range} {lexeme : Lexeme} (word constraint : Option String) (spelled : RangeSpelled range lexeme) :
      SizeSpelled (some range) [⟨word, .size false⟩, ⟨constraint, lexeme⟩]
  | enclosed {range : Range} {lexeme : Lexeme} (word constraint close : Option String)
      (spelled : RangeSpelled range lexeme) :
      SizeSpelled (some range) [⟨word, .size true⟩, ⟨constraint, lexeme⟩, ⟨close, .parenthesis⟩]

inductive LimitSpelled : Option Range → List Placed → Prop where
  | absent : LimitSpelled none []
  | present {range : Range} {lexeme : Lexeme} (comment : Option String) (spelled : RangeSpelled range lexeme) :
      LimitSpelled (some range) [⟨comment, lexeme⟩]

inductive NumberSpelled (lexeme : List Char → Lexeme) : Option Int → List Placed → Prop where
  | absent : NumberSpelled lexeme none []
  | present {digits : List Char} {number : Int} (comment : Option String) (numeral : Numeral digits number) :
      NumberSpelled lexeme (some number) [⟨comment, lexeme digits⟩]

inductive OptionalSpelled : Bool → List Placed → Prop where
  | absent : OptionalSpelled false []
  | present (comment : Option String) : OptionalSpelled true [⟨comment, .optional⟩]

mutual

inductive ShapeSpelled : Shape → List Placed → Prop where
  | mk {type : String} {series : Option Series} {size range : Option Range} {list : Option Read.ItemList}
      {lexeme : Lexeme} {before sizes limits rest : List Placed} (comment : Option String)
      (repeated : SeriesSpelled series before) (base : BaseSpelled type lexeme) (sized : SizeSpelled size sizes)
      (limited : LimitSpelled range limits) (listed : ListSpelled type list rest) :
      ShapeSpelled
        { type, series, size, range
          items := list.map (·.items)
          extensible := list.any (·.extensible)
          comment := list.bind (·.comment) }
        (before ++ (⟨comment, lexeme⟩ :: (sizes ++ (limits ++ rest))))

inductive ListSpelled : String → Option Read.ItemList → List Placed → Prop where
  | absent (type : String) : ListSpelled type none []
  | present {type : String} {kind : Kind} {items : List Item} {extensible : Bool} {placed : List Placed}
      (opening closing : Option String) (known : Kind.ofTypeName? type = some kind)
      (structured : (kind.isSimple || kind.isComplex) = true) (spelled : ItemsSpelled kind items extensible placed) :
      ListSpelled type (some ⟨items, extensible, closing⟩) (⟨opening, .opening⟩ :: (placed ++ [⟨closing, .closing⟩]))

inductive ItemsSpelled : Kind → List Item → Bool → List Placed → Prop where
  | last {kind : Kind} {item : Item} {placed : List Placed} (spelled : ItemSpelled kind item placed) :
      ItemsSpelled kind [item] false placed
  | ellipsis {kind : Kind} {item : Item} {placed : List Placed} (comma dots : Option String)
      (spelled : ItemSpelled kind item placed) (extensible : kind ≠ .sequence) :
      ItemsSpelled kind [item] true (placed ++ [⟨comma, .comma⟩, ⟨dots, .ellipsis⟩])
  | more {kind : Kind} {item : Item} {items : List Item} {extensible : Bool} {placed rest : List Placed}
      (comma : Option String) (spelled : ItemSpelled kind item placed)
      (others : ItemsSpelled kind items extensible rest) :
      ItemsSpelled kind (item :: items) extensible (placed ++ (⟨comma, .comma⟩ :: rest))

inductive ItemSpelled : Kind → Item → List Placed → Prop where
  | value {kind : Kind} {name digits : List Char} {number : Int} (comment between : Option String)
      (proper : isItemName name = true) (simple : kind.isSimple = true) (numeral : Numeral digits number) :
      ItemSpelled kind { name := String.ofList name, number := some number, comment }
        [⟨comment, .itemName name⟩, ⟨between, .itemNumber digits⟩]
  | typed {kind : Kind} {name : List Char} {tag : Option Int} {shape : Shape} {isOptional : Bool}
      {tags placed after : List Placed} (comment : Option String) (proper : isItemName name = true)
      (complex : kind.isSimple = false) (tagged : NumberSpelled .contextTag tag tags)
      (shaped : ShapeSpelled shape placed) (ended : OptionalSpelled isOptional after) :
      ItemSpelled kind
        { name := String.ofList name, number := tag, optional := isOptional, type := some shape.type
          series := shape.series, size := shape.size, range := shape.range, items := shape.items
          extensible := shape.extensible, comment := shape.comment.or comment }
        (⟨comment, .itemName name⟩ :: (tags ++ (placed ++ after)))

end

inductive DefinitionSpelled : Definition → List Placed → Prop where
  | mk {name : List Char} {primitive : Option Int} {shape : Shape} {numbers placed : List Placed}
      (comment : Option String) (proper : isTypeName name = true)
      (numbered : NumberSpelled .application primitive numbers) (shaped : ShapeSpelled shape placed) :
      DefinitionSpelled
        { shape with name := String.ofList name, primitive, comment := shape.comment.or comment }
        (⟨comment, .header name⟩ :: (numbers ++ placed))

/-- The lexemes that spell definitions, one definition after the other. -/
inductive Spelled : List Definition → List Placed → Prop where
  | nil : Spelled [] []
  | cons {definition : Definition} {definitions : List Definition} {placed rest : List Placed}
      (first : DefinitionSpelled definition placed) (more : Spelled definitions rest) :
      Spelled (definition :: definitions) (placed ++ rest)

end TypeCatalog.Proofs
