import TypeCatalog.Proofs.SourceGaps

/-! The lexemes of the notation and their spellings. A lexeme is made of fixed characters with places for white space
between them. What the recogniser of a form takes is a spelling of a lexeme, and it takes every spelling of one. -/

namespace TypeCatalog.Proofs
open Source Text

/-- A part of a lexeme: characters as they stand, or a place for white space. -/
inductive Part where
  | chars (text : List Char)
  | blanks
  | someBlanks

/-- A text with the characters of the parts in their order and white space in the places for it. -/
inductive Spread : List Part → List Char → Prop where
  | nil : Spread [] []
  | chars {parts : List Part} {tail : List Char} (text : List Char) (rest : Spread parts tail) :
      Spread (.chars text :: parts) (text ++ tail)
  | blanks {parts : List Part} {space tail : List Char} (all : ∀ c ∈ space, isBlank c = true)
      (rest : Spread parts tail) : Spread (.blanks :: parts) (space ++ tail)
  | someBlanks {parts : List Part} {space tail : List Char} (some : space ≠ []) (all : ∀ c ∈ space, isBlank c = true)
      (rest : Spread parts tail) : Spread (.someBlanks :: parts) (space ++ tail)

def isNameTail (inner afterHyphen : Char → Bool) : List Char → Bool
  | '-' :: c :: rest => afterHyphen c && isNameTail inner afterHyphen rest
  | c :: rest => inner c && isNameTail inner afterHyphen rest
  | [] => true

/-- `[A-Z][0-9A-Za-z]*(-[A-Z][0-9A-Za-z]*)*` -/
def isTypeName : List Char → Bool
  | c :: rest => c.isUpper && isNameTail Char.isAlphanum Char.isUpper rest
  | [] => false

/-- `[a-z][0-9a-z]*(-[0-9a-z]+)*` -/
def isItemName : List Char → Bool
  | c :: rest => c.isLower && isNameTail Form.isSmallAlphanum Form.isSmallAlphanum rest
  | [] => false

/-- At least one digit and nothing else. -/
structure Digits (text : List Char) : Prop where
  some : text ≠ []
  all : ∀ c ∈ text, isDigit c = true

/-- A sign, or none, and whether it makes a number negative. -/
inductive Sign : List Char → Bool → Prop where
  | absent : Sign [] false
  | plus : Sign ['+'] false
  | minus : Sign ['-'] true

/-- The text of a bound and the bound: a word, a whole number, or a number with a point, which stands for the nearest
binary number. -/
inductive Denotes : List Char → Bound → Prop where
  | lowest : Denotes "MIN".toList .lowest
  | highest : Denotes "MAX".toList .highest
  | whole {mark digits : List Char} {negative : Bool} (sign : Sign mark negative) (number : Digits digits) :
      Denotes (mark ++ digits) (.int (if negative then -(digitsValue digits : Int) else digitsValue digits))
  | fraction {mark whole places : List Char} {negative : Bool} (sign : Sign mark negative) (number : Digits whole)
      (tail : Digits places) :
      Denotes (mark ++ (whole ++ '.' :: places)) (.real (Decimal.ofDigits negative whole places 0).toDouble)

inductive Lexeme where
  | header (name : List Char)
  | application (digits : List Char)
  | series (count : Option (List Char))
  | anyType
  | enumerated
  | bitString
  | octetString
  | typeName (name : List Char)
  | size (parenthesis : Bool)
  | constraint (low : List Char) (high : Option (List Char))
  | itemName (name : List Char)
  | itemNumber (digits : List Char)
  | contextTag (digits : List Char)
  | optional
  | opening
  | closing
  | comma
  | ellipsis
  | parenthesis

namespace Lexeme

def parts : Lexeme → List Part
  | header name => [.chars name, .blanks, .chars "::=".toList]
  | application digits =>
    [.chars ['['], .blanks, .chars "APPLICATION".toList, .someBlanks, .chars digits, .blanks, .chars [']']]
  | series none => [.chars "SEQUENCE".toList, .blanks, .chars "OF".toList]
  | series (some digits) =>
    [.chars "SEQUENCE".toList, .blanks, .chars "SIZE".toList, .blanks, .chars ['('], .blanks, .chars digits, .blanks,
      .chars [')'], .blanks, .chars "OF".toList]
  | anyType => [.chars "ABSTRACT-SYNTAX.&Type".toList]
  | enumerated => [.chars "ENUMERATED".toList]
  | bitString => [.chars "BIT".toList, .someBlanks, .chars "STRING".toList]
  | octetString => [.chars "OCTET".toList, .someBlanks, .chars "STRING".toList]
  | typeName name => [.chars name]
  | size false => [.chars "SIZE".toList]
  | size true => [.chars ['('], .blanks, .chars "SIZE".toList]
  | constraint low none => [.chars ['('], .blanks, .chars low, .blanks, .chars [')']]
  | constraint low (some high) =>
    [.chars ['('], .blanks, .chars low, .blanks, .chars ['.', '.'], .blanks, .chars high, .blanks, .chars [')']]
  | itemName name => [.chars name]
  | itemNumber digits => [.chars ['('], .blanks, .chars digits, .blanks, .chars [')']]
  | contextTag digits => [.chars ['['], .blanks, .chars digits, .blanks, .chars [']']]
  | optional => [.chars "OPTIONAL".toList]
  | opening => [.chars ['\x7b']]
  | closing => [.chars ['\x7d']]
  | comma => [.chars [',']]
  | ellipsis => [.chars ['.', '.', '.']]
  | parenthesis => [.chars [')']]

def compact (lexeme : Lexeme) : List Char :=
  lexeme.parts.flatMap fun
    | .chars text => text
    | .blanks | .someBlanks => []

def Proper : Lexeme → Prop
  | header name | typeName name => isTypeName name = true
  | itemName name => isItemName name = true
  | application digits | itemNumber digits | contextTag digits => Digits digits
  | series count => ∀ digits, count = some digits → Digits digits
  | constraint low high => (∃ bound, Denotes low bound) ∧ ∀ text, high = some text → ∃ bound, Denotes text bound
  | _ => True

/-- The characters that may start a lexeme. -/
def first : Lexeme → Char → Bool
  | header _ | typeName _ => Char.isUpper
  | itemName _ => Char.isLower
  | application _ | contextTag _ => (· == '[')
  | series _ | size false => (· == 'S')
  | anyType => (· == 'A')
  | enumerated => (· == 'E')
  | bitString => (· == 'B')
  | octetString | optional => (· == 'O')
  | size true | constraint .. | itemNumber _ => (· == '(')
  | opening => (· == '\x7b')
  | closing => (· == '\x7d')
  | comma => (· == ',')
  | ellipsis => (· == '.')
  | parenthesis => (· == ')')

/-- The characters that a lexeme would run into if they came right after it. -/
def continues : Lexeme → Char → Bool
  | series _ | enumerated | bitString | octetString | typeName _ | size _ | optional => Char.isAlphanum
  | itemName _ => Form.isSmallAlphanum
  | _ => fun _ => false

/-- A text spells a lexeme in front of a rest that it does not run into. -/
structure Written (lexeme : Lexeme) (text rest : List Char) : Prop where
  proper : lexeme.Proper
  spread : Spread lexeme.parts text
  ends : opens lexeme.continues rest = false

end Lexeme

/-- A rest in front of which a name ends. -/
structure NameEnds (inner afterHyphen : Char → Bool) (rest : List Char) : Prop where
  inner : opens inner rest = false
  hyphen : ∀ c more, rest = '-' :: c :: more → afterHyphen c = false

private theorem isNameTail_cons {inner afterHyphen : Char → Bool} (noHyphen : inner '-' = false) {c : Char}
    (member : inner c = true) (rest : List Char) :
    isNameTail inner afterHyphen (c :: rest) = isNameTail inner afterHyphen rest := by
  rw [isNameTail, member, Bool.true_and]
  rintro next more rfl
  simp [noHyphen] at member

private theorem nameRest_splits {inner afterHyphen : Char → Bool} (noHyphen : inner '-' = false) (text : List Char) :
    let (tail, rest) := Form.nameRest inner afterHyphen text
    text = tail ++ rest ∧ isNameTail inner afterHyphen tail = true ∧ NameEnds inner afterHyphen rest := by
  fun_induction Form.nameRest inner afterHyphen text with
  | case1 c rest accepted tail more found ih =>
    rw [found] at ih
    obtain ⟨split, proper, ends⟩ := ih
    refine ⟨by rw [split]; rfl, ?_, ends⟩
    rw [isNameTail, accepted, proper]
    rfl
  | case2 c rest refused =>
    refine ⟨rfl, rfl, noHyphen, ?_⟩
    intro next more same
    cases same
    simpa using refused
  | case3 c rest apart accepted tail more found ih =>
    rw [found] at ih
    obtain ⟨split, proper, ends⟩ := ih
    refine ⟨by rw [split]; rfl, ?_, ends⟩
    rw [isNameTail_cons noHyphen accepted, proper]
  | case4 c rest apart refused =>
    refine ⟨rfl, rfl, by simpa using refused, ?_⟩
    intro next more same
    cases same
    exact absurd rfl (apart next more rfl)
  | case5 => exact ⟨rfl, rfl, rfl, by simp⟩

private theorem nameRest_takes {inner afterHyphen : Char → Bool} {tail rest : List Char}
    (proper : isNameTail inner afterHyphen tail = true) (noHyphen : inner '-' = false)
    (ends : NameEnds inner afterHyphen rest) : Form.nameRest inner afterHyphen (tail ++ rest) = (tail, rest) := by
  fun_induction isNameTail inner afterHyphen tail with
  | case1 c tail ih =>
    obtain ⟨accepted, proper⟩ := Bool.and_eq_true_iff.mp proper
    rw [List.cons_append, List.cons_append, Form.nameRest, ih proper]
    simp [accepted]
  | case2 c tail apart ih =>
    obtain ⟨accepted, proper⟩ := Bool.and_eq_true_iff.mp proper
    rw [List.cons_append, Form.nameRest, ih proper]
    · simp [accepted]
    · rintro next more rfl
      simp [noHyphen] at accepted
  | case3 =>
    cases rest with
    | nil => rw [List.nil_append, Form.nameRest]
    | cons c rest =>
      have stops : inner c = false := ends.inner
      by_cases hyphen : c = '-' ∧ rest ≠ []
      · obtain ⟨rfl, some⟩ := hyphen
        obtain ⟨next, more, rfl⟩ := List.exists_cons_of_ne_nil some
        simp [Form.nameRest, ends.hyphen next more rfl]
      · rw [List.nil_append, Form.nameRest]
        · simp [stops]
        · rintro next more rfl rfl
          exact hyphen ⟨rfl, by simp⟩

private theorem reads_name {first inner afterHyphen : Char → Bool} (noHyphen : inner '-' = false) :
    Reads (Form.name first inner afterHyphen) fun name lexeme rest =>
      lexeme = name ∧ (∃ c tail, name = c :: tail ∧ first c = true ∧ isNameTail inner afterHyphen tail = true) ∧
        NameEnds inner afterHyphen rest := by
  intro text taken accepted
  cases text with
  | nil => cases accepted
  | cons c text =>
    simp only [Form.name] at accepted
    split at accepted
    next starts =>
      obtain ⟨split, proper, ends⟩ := @nameRest_splits inner afterHyphen noHyphen text
      cases accepted
      exact ⟨congrArg (c :: ·) split, rfl, ⟨c, _, rfl, starts, proper⟩, ends⟩
    · cases accepted

private theorem takes_name {first inner afterHyphen : Char → Bool} {isName : List Char → Bool} {name rest : List Char}
    (noHyphen : inner '-' = false) (empty : isName [] = false)
    (form : ∀ c tail, isName (c :: tail) = (first c && isNameTail inner afterHyphen tail)) (proper : isName name = true)
    (ends : NameEnds inner afterHyphen rest) : Takes (Form.name first inner afterHyphen) name name rest := by
  cases name with
  | nil =>
    rw [empty] at proper
    cases proper
  | cons c tail =>
    rw [form] at proper
    obtain ⟨starts, proper⟩ := Bool.and_eq_true_iff.mp proper
    simp only [Takes, Form.name, List.cons_append, starts, if_true, nameRest_takes proper noHyphen ends]

theorem reads_typeName : Reads Form.typeName fun name lexeme rest =>
    lexeme = name ∧ isTypeName name = true ∧ NameEnds Char.isAlphanum Char.isUpper rest := by
  refine (reads_name (by decide)).weaken ?_
  rintro name lexeme rest ⟨same, ⟨c, tail, rfl, starts, proper⟩, ends⟩
  exact ⟨same, by simp [isTypeName, starts, proper], ends⟩

theorem takes_typeName {name rest : List Char} (proper : isTypeName name = true)
    (ends : NameEnds Char.isAlphanum Char.isUpper rest) : Takes Form.typeName name name rest :=
  takes_name (by decide) rfl (fun _ _ => rfl) proper ends

theorem reads_itemName : Reads Form.itemName fun name lexeme rest =>
    lexeme = name ∧ isItemName name = true ∧ NameEnds Form.isSmallAlphanum Form.isSmallAlphanum rest := by
  refine (reads_name (by decide)).weaken ?_
  rintro name lexeme rest ⟨same, ⟨c, tail, rfl, starts, proper⟩, ends⟩
  exact ⟨same, by simp [isItemName, starts, proper], ends⟩

theorem takes_itemName {name rest : List Char} (proper : isItemName name = true)
    (ends : NameEnds Form.isSmallAlphanum Form.isSmallAlphanum rest) : Takes Form.itemName name name rest :=
  takes_name (by decide) rfl (fun _ _ => rfl) proper ends

theorem ends_alphanum {rest : List Char} (ends : endsWord rest = true) : opens Char.isAlphanum rest = false := by
  cases rest with
  | nil => rfl
  | cons c rest =>
    cases letter : c.isAlphanum with
    | false => exact letter
    | true => simp [endsWord, word_of_alphanum letter] at ends

theorem reads_keyword (word : String) :
    Reads (Form.keyword word) fun _ text rest => text = word.toList ∧ endsWord rest = true := by
  refine (reads_literal _).bind fun _ front => ?_
  refine reads_wordEnd.weaken ?_
  rintro _ _ rest ⟨rfl, ends⟩ rfl
  exact ⟨List.append_nil _, ends⟩

theorem reads_header : Reads Form.header fun name text rest => (Lexeme.header name).Written text rest := by
  refine reads_typeName.bind fun name front => ?_
  refine (reads_allOf isBlank).bind fun _ space => ?_
  refine (reads_literal _).bind fun _ mark => ?_
  refine .pure name fun rest => ?_
  rintro rfl ⟨rfl, blank, -⟩ ⟨rfl, proper, -⟩
  exact ⟨proper, .chars _ (.blanks blank (.chars _ .nil)), by cases rest <;> rfl⟩

private theorem reads_enclosed (opening closing : Char) :
    Reads (Form.enclosed opening closing) fun digits text _ =>
      Digits digits ∧
        Spread [.chars [opening], .blanks, .chars digits, .blanks, .chars [closing]] text := by
  refine (reads_literal _).bind fun _ _ => ?_
  refine (reads_allOf isBlank).bind fun _ _ => ?_
  refine (reads_someOf isDigit).bind fun digits _ => ?_
  refine (reads_allOf isBlank).bind fun _ _ => ?_
  refine (reads_literal _).bind fun _ _ => ?_
  refine .pure digits fun rest => ?_
  rintro rfl ⟨rfl, after, -⟩ ⟨rfl, some, all, -⟩ ⟨rfl, before, -⟩ rfl
  exact ⟨⟨some, all⟩, .chars _ (.blanks before (.chars _ (.blanks after (.chars _ .nil))))⟩

private theorem opens_never (rest : List Char) : opens (fun _ => false) rest = false := by
  cases rest <;> rfl

theorem reads_itemNumber :
    Reads Form.itemNumber fun digits text rest => (Lexeme.itemNumber digits).Written text rest := by
  refine (reads_enclosed '(' ')').weaken ?_
  rintro digits text rest ⟨proper, spread⟩
  exact ⟨proper, spread, opens_never rest⟩

theorem reads_contextTag :
    Reads Form.contextTag fun digits text rest => (Lexeme.contextTag digits).Written text rest := by
  refine (reads_enclosed '[' ']').weaken ?_
  rintro digits text rest ⟨proper, spread⟩
  exact ⟨proper, spread, opens_never rest⟩

theorem reads_application :
    Reads Form.application fun digits text rest => (Lexeme.application digits).Written text rest := by
  refine (reads_literal _).bind fun _ _ => ?_
  refine (reads_allOf isBlank).bind fun _ _ => ?_
  refine (reads_literal _).bind fun _ _ => ?_
  refine (reads_someOf isBlank).bind fun _ _ => ?_
  refine (reads_someOf isDigit).bind fun digits _ => ?_
  refine (reads_allOf isBlank).bind fun _ _ => ?_
  refine (reads_literal _).bind fun _ _ => ?_
  refine .pure digits fun rest => ?_
  rintro rfl ⟨rfl, after, -⟩ ⟨rfl, some, all, -⟩ ⟨rfl, space, between, -⟩ rfl ⟨rfl, before, -⟩ rfl
  exact ⟨⟨some, all⟩,
    .chars _ (.blanks before (.chars _ (.someBlanks space between (.chars _ (.blanks after (.chars _ .nil)))))),
    opens_never rest⟩

private theorem Spread.append {first second : List Part} {front back : List Char} (left : Spread first front)
    (right : Spread second back) : Spread (first ++ second) (front ++ back) := by
  induction left with
  | nil => exact right
  | chars text _ ih =>
    rw [List.append_assoc]
    exact .chars text ih
  | blanks all _ ih =>
    rw [List.append_assoc]
    exact .blanks all ih
  | someBlanks some all _ ih =>
    rw [List.append_assoc]
    exact .someBlanks some all ih

private theorem Spread.last (text : List Char) : Spread [.chars text] text := by
  have spread := Spread.chars text .nil
  rwa [List.append_nil] at spread

private def countParts (digits : List Char) : List Part :=
  [.chars "SIZE".toList, .blanks] ++
    ([.chars ['('], .blanks, .chars digits, .blanks, .chars [')']] ++ [.blanks])

private theorem reads_seriesCount :
    Reads Form.seriesCount fun digits text _ => Digits digits ∧ Spread (countParts digits) text := by
  refine (reads_literal _).bind fun _ _ => ?_
  refine (reads_allOf isBlank).bind fun _ _ => ?_
  refine (reads_enclosed '(' ')').bind fun digits number => ?_
  refine (reads_allOf isBlank).bind fun _ _ => ?_
  refine .pure digits fun rest => ?_
  rintro ⟨rfl, after, -⟩ ⟨proper, spread⟩ ⟨rfl, before, -⟩ rfl
  exact ⟨proper, .chars _ (.blanks before (spread.append (.blanks after .nil)))⟩

theorem reads_series : Reads Form.series fun count text rest => (Lexeme.series count).Written text rest := by
  refine (reads_literal _).bind fun _ _ => ?_
  refine (reads_allOf isBlank).bind fun _ _ => ?_
  refine (reads_optionally reads_seriesCount).bind fun count part => ?_
  refine (reads_keyword "OF").bind fun _ _ => ?_
  refine .pure count fun rest => ?_
  rintro ⟨rfl, ends⟩ counted ⟨rfl, before, -⟩ rfl
  rcases counted with ⟨rfl, rfl, -⟩ | ⟨digits, rfl, proper, spread⟩
  · exact ⟨nofun, .chars _ (.blanks before (.chars _ .nil)), ends_alphanum ends⟩
  · refine ⟨fun _ same => by cases same; exact proper, ?_, ends_alphanum ends⟩
    exact .chars _ (.blanks before (spread.append (.chars _ .nil)))

theorem reads_fixed {scan : Scan Unit} {word : String} (lexeme : Lexeme) (same : scan = Form.keyword word)
    (proper : lexeme.Proper) (parts : lexeme.parts = [.chars word.toList]) (letters : lexeme.continues = Char.isAlphanum) :
    Reads scan fun _ text rest => lexeme.Written text rest := by
  subst same
  refine (reads_keyword word).weaken ?_
  rintro _ text rest ⟨rfl, ends⟩
  exact ⟨proper, parts ▸ .last _, letters ▸ ends_alphanum ends⟩

private theorem reads_words (first : List Char) (second : String) :
    Reads (do Scan.literal first; let _ ← Scan.someBlanks; Form.keyword second) fun _ text rest =>
      Spread [.chars first, .someBlanks, .chars second.toList] text ∧ endsWord rest = true := by
  refine (reads_literal _).bind fun _ _ => ?_
  refine (reads_someOf isBlank).bind fun _ _ => ?_
  refine (reads_keyword second).weaken ?_
  rintro _ _ rest ⟨rfl, ends⟩ ⟨rfl, some, all, -⟩ rfl
  exact ⟨.chars _ (.someBlanks some all (.last _)), ends⟩

theorem reads_bitString : Reads Form.bitString fun _ text rest => Lexeme.bitString.Written text rest := by
  refine (reads_words "BIT".toList "STRING").weaken ?_
  rintro _ text rest ⟨spread, ends⟩
  exact ⟨trivial, spread, ends_alphanum ends⟩

theorem reads_octetString : Reads Form.octetString fun _ text rest => Lexeme.octetString.Written text rest := by
  refine (reads_words "OCTET".toList "STRING").weaken ?_
  rintro _ text rest ⟨spread, ends⟩
  exact ⟨trivial, spread, ends_alphanum ends⟩

theorem reads_mark {chars : List Char} (lexeme : Lexeme) (proper : lexeme.Proper)
    (parts : lexeme.parts = [.chars chars]) (free : lexeme.continues = fun _ => false) :
    Reads (Scan.literal chars) fun _ text rest => lexeme.Written text rest := by
  refine (reads_literal chars).weaken ?_
  rintro _ text rest rfl
  exact ⟨proper, parts ▸ .last _, free ▸ opens_never rest⟩

theorem reads_typeNameLexeme :
    Reads Form.typeName fun name text rest => (Lexeme.typeName name).Written text rest := by
  refine reads_typeName.weaken ?_
  rintro name text rest ⟨rfl, proper, ends⟩
  exact ⟨proper, .last _, ends.inner⟩

theorem reads_itemNameLexeme :
    Reads Form.itemName fun name text rest => (Lexeme.itemName name).Written text rest := by
  refine reads_itemName.weaken ?_
  rintro name text rest ⟨rfl, proper, ends⟩
  exact ⟨proper, .last _, ends.inner⟩

/-- White space in front of `SIZE` is taken also if no parenthesis is there; after a gap there is none. -/
theorem reads_size :
    Reads Form.size fun parenthesis text rest =>
      opens isBlank text = false → (Lexeme.size parenthesis).Written text rest := by
  refine (reads_optionally (reads_literal _)).bind fun parenthesis _ => ?_
  refine (reads_allOf isBlank).bind fun _ space => ?_
  refine (reads_keyword "SIZE").bind fun _ _ => ?_
  refine .pure _ fun rest => ?_
  rintro ⟨rfl, ends⟩ ⟨rfl, blank, -⟩ opened solid
  rcases opened with ⟨rfl, rfl, -⟩ | ⟨inner, rfl, rfl⟩
  · cases space with
    | nil => exact ⟨trivial, .chars _ .nil, ends_alphanum ends⟩
    | cons c space => simp [blank c] at solid
  · exact ⟨trivial, .chars _ (.blanks blank (.chars _ .nil)), ends_alphanum ends⟩

private theorem reads_sign :
    Reads (Scan.optionally (Scan.either (do Scan.literal ['+']; return '+') (do Scan.literal ['-']; return '-')))
      fun value text _ => text = value.toList ∧ ∃ negative, Sign value.toList negative := by
  have character {c : Char} {negative : Bool} (sign : Sign [c] negative) :
      Reads (do Scan.literal [c]; return c) fun value text _ => text = [value] ∧ ∃ negative, Sign [value] negative := by
    refine (reads_literal _).bind fun _ _ => ?_
    exact .pure c fun rest same => ⟨by rw [same]; rfl, negative, sign⟩
  refine (reads_optionally (reads_either (character .plus) (character .minus))).weaken ?_
  rintro value text rest (⟨rfl, rfl, -⟩ | ⟨c, rfl, same, sign⟩)
  · exact ⟨rfl, false, .absent⟩
  · exact ⟨same, sign⟩

private theorem reads_fraction :
    Reads Form.fraction fun value text _ => text = value ∧ ∃ places, value = '.' :: places ∧ Digits places := by
  refine (reads_literal _).bind fun _ _ => ?_
  refine (reads_someOf isDigit).bind fun places _ => ?_
  refine .pure _ fun rest => ?_
  rintro ⟨rfl, some, all, -⟩ rfl
  exact ⟨by simp, _, rfl, some, all⟩

private theorem reads_signed : Reads Form.signed fun value text _ => text = value ∧ ∃ bound, Denotes value bound := by
  refine reads_sign.bind fun sign _ => ?_
  refine (reads_someOf isDigit).bind fun whole _ => ?_
  refine (reads_optionally reads_fraction).bind fun fraction _ => ?_
  refine .pure _ fun rest => ?_
  rintro tail ⟨rfl, some, all, -⟩ ⟨rfl, negative, sign⟩
  rcases tail with ⟨rfl, rfl, -⟩ | ⟨_, rfl, rfl, places, rfl, digits⟩
  · have number := Denotes.whole sign ⟨some, all⟩
    exact ⟨by simp, _, by simpa using number⟩
  · have number := Denotes.fraction sign ⟨some, all⟩ digits
    exact ⟨by simp, _, by simpa using number⟩

private theorem reads_wordBound {word : String} {bound : Bound} (denotes : Denotes word.toList bound) :
    Reads (do Scan.literal word.toList; return word.toList) fun value text _ =>
      text = value ∧ ∃ bound, Denotes value bound := by
  refine (reads_literal _).bind fun _ _ => ?_
  exact .pure _ fun rest same => ⟨by rw [same, List.append_nil], bound, denotes⟩

theorem reads_bound : Reads Form.bound fun value text _ => text = value ∧ ∃ bound, Denotes value bound :=
  reads_either (reads_wordBound .lowest) (reads_either (reads_wordBound .highest) reads_signed)

private theorem reads_upperBound :
    Reads Form.upperBound fun value text _ =>
      (∃ bound, Denotes value bound) ∧ Spread [.chars ['.', '.'], .blanks, .chars value, .blanks] text := by
  refine (reads_literal _).bind fun _ _ => ?_
  refine (reads_allOf isBlank).bind fun _ _ => ?_
  refine reads_bound.bind fun value _ => ?_
  refine (reads_allOf isBlank).bind fun _ _ => ?_
  refine .pure value fun rest => ?_
  rintro ⟨rfl, after, -⟩ ⟨rfl, denotes⟩ ⟨rfl, before, -⟩ rfl
  exact ⟨denotes, .chars _ (.blanks before (.chars _ (.blanks after .nil)))⟩

theorem reads_constraint :
    Reads Form.constraint fun bounds text rest => (Lexeme.constraint bounds.1 bounds.2).Written text rest := by
  refine (reads_literal _).bind fun _ _ => ?_
  refine (reads_allOf isBlank).bind fun _ _ => ?_
  refine reads_bound.bind fun low _ => ?_
  refine (reads_allOf isBlank).bind fun _ _ => ?_
  refine (reads_optionally reads_upperBound).bind fun high _ => ?_
  refine (reads_literal _).bind fun _ _ => ?_
  refine .pure (low, high) fun rest => ?_
  rintro rfl upper ⟨rfl, after, -⟩ ⟨rfl, denotes⟩ ⟨rfl, before, -⟩ rfl
  rcases upper with ⟨rfl, rfl, -⟩ | ⟨value, rfl, bound, spread⟩
  · exact ⟨⟨denotes, nofun⟩, .chars _ (.blanks before (.chars _ (.blanks after (.chars _ .nil)))), opens_never rest⟩
  · refine ⟨⟨denotes, fun _ same => by cases same; exact bound⟩, ?_, opens_never rest⟩
    exact .chars _ (.blanks before (.chars _ (.blanks after (spread.append (.chars _ .nil)))))

end TypeCatalog.Proofs
