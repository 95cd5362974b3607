import TypeCatalog.Proofs.NameHyphens

/-! What names in the catalogue look like: words of small letters and digits with one hyphen between two of them. They have
the letters and digits of the name they come from, and being such names already, they stay as they are. -/

namespace TypeCatalog.Proofs
open Name Source Text

/-- `[a-z0-9]+(-[a-z0-9]+)*` -/
def isCatalogueName : List Char → Bool
  | c :: rest => Form.isSmallAlphanum c && isNameTail Form.isSmallAlphanum Form.isSmallAlphanum rest
  | [] => false

def isJoined (inner : Char → Bool) : List Char → Bool
  | c :: rest => (inner c || c == '-' && rest.head?.any inner) && isJoined inner rest
  | [] => true

section
variable {inner : Char → Bool} {isEnd : Char → List Char → Bool} {c : Char} {rest text : List Char}

theorem isJoined_cons (plain : c ≠ '-') : isJoined inner (c :: rest) = (inner c && isJoined inner rest) := by
  rw [isJoined, beq_eq_false_iff_ne.mpr plain, Bool.false_and, Bool.or_false]

theorem isJoined_of_tail {first afterHyphen : Char → Bool} (letters : ∀ c, first c = true → inner c = true)
    (behind : ∀ c, afterHyphen c = true → inner c = true) (tail : isNameTail first afterHyphen text = true) :
    isJoined inner text = true := by
  fun_induction isNameTail first afterHyphen text with
  | case1 c rest ih =>
    obtain ⟨accepted, tail⟩ := Bool.and_eq_true_iff.mp tail
    simp [isJoined, behind c accepted, ih tail]
  | case2 c rest _ ih =>
    obtain ⟨accepted, tail⟩ := Bool.and_eq_true_iff.mp tail
    simp [isJoined, letters c accepted, ih tail]
  | case3 => rfl

theorem isJoined_tail (plain : inner '-' = false) (joined : isJoined inner text = true) :
    isNameTail inner inner text = true := by
  fun_induction isNameTail inner inner text with
  | case1 c rest ih =>
    simp only [isJoined, plain, Bool.false_or, beq_self_eq_true, Bool.true_and, List.head?_cons, Option.any_some,
      Bool.and_eq_true] at joined
    exact Bool.and_eq_true_iff.mpr ⟨joined.1, ih joined.2.2⟩
  | case2 c rest other ih =>
    obtain ⟨first, joined⟩ := Bool.and_eq_true_iff.mp joined
    refine Bool.and_eq_true_iff.mpr ⟨?_, ih joined⟩
    rcases Bool.or_eq_true_iff.mp first with accepted | hyphen
    · exact accepted
    · obtain ⟨same, next⟩ := Bool.and_eq_true_iff.mp hyphen
      cases rest with
      | nil => cases next
      | cons d rest => exact (other d rest (beq_iff_eq.mp same) rfl).elim
  | case3 => rfl

theorem isJoined_drop (joined : isJoined inner text = true) (count : Nat) : isJoined inner (text.drop count) = true := by
  induction text generalizing count with
  | nil => rw [List.drop_nil]; rfl
  | cons c rest ih =>
    cases count with
    | zero => exact joined
    | succ count => exact ih (Bool.and_eq_true_iff.mp joined).2 count

theorem isJoined_chars (joined : isJoined inner text = true) : ∀ c ∈ text, inner c = true ∨ c = '-' := by
  induction text with
  | nil => exact List.forall_mem_nil _
  | cons c rest ih =>
    obtain ⟨first, joined⟩ := Bool.and_eq_true_iff.mp joined
    refine List.forall_mem_cons.mpr ⟨?_, ih joined⟩
    exact (Bool.or_eq_true_iff.mp first).imp_right fun hyphen => beq_iff_eq.mp (Bool.and_eq_true_iff.mp hyphen).1

theorem isJoined_head (joined : isJoined inner text = true) (plain : text.head?.any (· != '-') = true) :
    text.head?.any inner = true := by
  cases text with
  | nil => cases plain
  | cons c rest =>
    have other : c ≠ '-' := by simpa using plain
    rw [isJoined_cons other, Bool.and_eq_true] at joined
    exact joined.1

theorem separate_joined (joined : isJoined inner text = true)
    (between : ∀ c rest, isEnd c rest = true → c ≠ '-' ∧ rest.head?.any (· != '-') = true) :
    isJoined inner (separate isEnd text) = true := by
  induction text with
  | nil => rfl
  | cons c rest ih =>
    obtain ⟨first, joined⟩ := Bool.and_eq_true_iff.mp joined
    rw [separate]
    split
    next ends =>
      obtain ⟨plain, next⟩ := between c rest ends
      have accepted : inner c = true := by simpa [plain] using first
      have behind := isJoined_head joined next
      rw [← separate_head isEnd] at behind
      simp [isJoined, accepted, behind, ih joined]
    next => simpa [isJoined, separate_head, ih joined] using first

theorem hyphenAfter_between (digits : Bool) (c : Char) (rest : List Char) (ends : hyphenAfter digits c rest = true) :
    c ≠ '-' ∧ rest.head?.any (· != '-') = true := by
  cases rest with
  | nil => simp [hyphenAfter, endsBeforeCapital, endsAcronym, endsBeforeDigit] at ends
  | cons next rest =>
    constructor
    · rintro rfl
      cases rest <;> simp [hyphenAfter, endsBeforeCapital, endsAcronym, endsBeforeDigit] at ends
    · have plain : next ≠ '-' := by
        rintro rfl
        cases rest <;> simp [hyphenAfter, endsBeforeCapital, endsAcronym, endsBeforeDigit, isDigit, digitValue?] at ends
      simpa using plain

theorem unifyBrand_head (text : List Char) : (unifyBrand text).head? = text.head? := by
  fun_cases unifyBrand text <;> rfl

theorem unifyBrand_joined (joined : isJoined Char.isAlphanum text = true) :
    isJoined Char.isAlphanum (unifyBrand text) = true := by
  fun_induction unifyBrand text with
  | case1 rest ih =>
    have tail := ih (isJoined_drop joined 6)
    simp [isJoined, tail]
  | case2 c rest _ ih =>
    obtain ⟨first, joined⟩ := Bool.and_eq_true_iff.mp joined
    rw [isJoined, unifyBrand_head, first, ih joined]
    rfl
  | case3 => rfl

theorem toLower_small (letter : c.isAlphanum = true) : Form.isSmallAlphanum c.toLower = true := by
  rcases Bool.or_eq_true_iff.mp letter with alpha | digit
  · rw [Form.isSmallAlphanum, Char.isLower_toLower_eq_isAlpha, alpha, Bool.true_or]
  · have same : c.toLower = c := Char.toLower_eq_of_not_isUpper fun upper => by
      have point : 65 ≤ c.toNat ∧ c.toNat ≤ 90 := of_decide_eq_true upper
      have other : 48 ≤ c.toNat ∧ c.toNat ≤ 57 := Char.isDigit_iff_toNat.mp digit
      omega
    rw [same, Form.isSmallAlphanum, digit, Bool.or_true]

theorem toLower_joined (joined : isJoined Char.isAlphanum text = true) :
    isJoined Form.isSmallAlphanum (text.map Char.toLower) = true := by
  induction text with
  | nil => rfl
  | cons c rest ih =>
    obtain ⟨first, joined⟩ := Bool.and_eq_true_iff.mp joined
    rw [List.map_cons, isJoined, ih joined, Bool.and_true]
    rcases Bool.or_eq_true_iff.mp first with accepted | hyphen
    · rw [toLower_small accepted, Bool.true_or]
    · obtain ⟨same, next⟩ := Bool.and_eq_true_iff.mp hyphen
      cases beq_iff_eq.mp same
      cases rest with
      | nil => cases next
      | cons d rest =>
        have behind : Form.isSmallAlphanum d.toLower = true := toLower_small next
        simp [behind]

theorem isCatalogueName_of (joined : isJoined Form.isSmallAlphanum text = true)
    (front : text.head?.any Form.isSmallAlphanum = true) : isCatalogueName text = true := by
  cases text with
  | nil => cases front
  | cons c rest => exact Bool.and_eq_true_iff.mpr ⟨front, isJoined_tail rfl (isJoined_drop joined 1)⟩

/-! Letters and digits. -/

theorem separate_letters (isEnd : Char → List Char → Bool) (text : List Char) :
    (separate isEnd text).filter (· != '-') = text.filter (· != '-') := by
  induction text with
  | nil => rfl
  | cons c rest ih =>
    rw [separate]
    split <;> simp [List.filter_cons, ih]

theorem unifyBrand_lower (text : List Char) : (unifyBrand text).map Char.toLower = text.map Char.toLower := by
  fun_induction unifyBrand text with
  | case1 rest ih =>
    simp only [List.map_cons, ih]
    rfl
  | case2 c rest _ ih => rw [List.map_cons, List.map_cons, ih]
  | case3 => rfl

theorem toLower_hyphen (c : Char) : (c.toLower != '-') = (c != '-') := by
  by_cases upper : c.isUpper = true
  · have alpha : c.isAlpha = true := by rw [Char.isAlpha, upper, Bool.true_or]
    have other : c ≠ '-' := by
      rintro rfl
      cases upper
    have lower : c.toLower ≠ '-' := by
      intro same
      have small := Char.isLower_toLower_eq_isAlpha c
      rw [same, alpha] at small
      cases small
    rw [bne_iff_ne.mpr other, bne_iff_ne.mpr lower]
  · rw [Char.toLower_eq_of_not_isUpper upper]

theorem toLower_letters (text : List Char) :
    (text.map Char.toLower).filter (· != '-') = (text.filter (· != '-')).map Char.toLower := by
  rw [List.filter_map]
  congr 2
  funext c
  exact toLower_hyphen c

/-! Names that stay as they are. -/

theorem unifyBrand_append {front : List Char} (small : ∀ c ∈ front, c.isUpper = false) (text : List Char) :
    unifyBrand (front ++ text) = front ++ unifyBrand text := by
  induction front with
  | nil => rfl
  | cons c rest ih =>
    obtain ⟨first, others⟩ := List.forall_mem_cons.mp small
    have other : c ≠ 'B' := by
      rintro rfl
      cases first
    rw [List.cons_append, unifyBrand, ih others, List.cons_append]
    intro _ same
    exact absurd same other

theorem unifyBrand_small (small : ∀ c ∈ text, c.isUpper = false) : unifyBrand text = text := by
  have same := unifyBrand_append small []
  rwa [List.append_nil, unifyBrand, List.append_nil] at same

theorem withLead_small (lead : Lead) (small : ∀ c ∈ text, c.isUpper = false) : withLead lead text = text := by
  have absent {word : List Char} (capital : word.head?.any Char.isUpper = true) : word.isPrefixOf text = false := by
    rw [Bool.eq_false_iff]
    intro found
    obtain ⟨tail, rfl⟩ := List.isPrefixOf_iff_prefix.mp found
    cases word with
    | nil => cases capital
    | cons c rest =>
      have upper : c.isUpper = true := capital
      rw [small c List.mem_cons_self] at upper
      cases upper
  cases lead with
  | keep => rfl
  | replace front => rw [withLead, absent rfl, absent rfl]; rfl

theorem hyphenAfter_small (first : c.isUpper = false) (next : rest.head?.any Char.isUpper = false) :
    hyphenAfter false c rest = false := by
  have acronym : endsAcronym c rest = false := by
    match rest with
    | [] | [_] => rfl
    | _ :: _ :: _ => rw [endsAcronym, first, Bool.false_and, Bool.false_and]
  simp [hyphenAfter, endsBeforeCapital, next, acronym]

/-- No hyphens are put into what has no capital letters. -/
theorem separate_append {front : List Char} (small : ∀ c ∈ front, c.isUpper = false)
    (next : text.head?.any Char.isUpper = false) :
    separate (hyphenAfter false) (front ++ text) = front ++ separate (hyphenAfter false) text := by
  induction front with
  | nil => rfl
  | cons c rest ih =>
    obtain ⟨first, others⟩ := List.forall_mem_cons.mp small
    have behind : (rest ++ text).head?.any Char.isUpper = false := by
      cases rest with
      | nil => exact next
      | cons d rest => exact others d List.mem_cons_self
    rw [List.cons_append, separate, hyphenAfter_small first behind, ih others]
    rfl

theorem separate_small (small : ∀ c ∈ text, c.isUpper = false) : separate (hyphenAfter false) text = text := by
  have same := @separate_append [] text small rfl
  rwa [List.append_nil, separate, List.append_nil] at same

theorem toLower_unchanged (small : ∀ c ∈ text, c.isUpper = false) : text.map Char.toLower = text := by
  calc text.map Char.toLower = text.map id :=
        List.map_congr_left fun c member => Char.toLower_eq_of_not_isUpper (by simp [small c member])
    _ = text := List.map_id text

/-- A name without capital letters is its own name. -/
theorem convert_small (lead : Lead) (narrow : ∀ c ∈ text, c.toNat < 128) (small : ∀ c ∈ text, c.isUpper = false) :
    convert lead text = text := by
  have first : text.head?.any Char.isUpper = false := by
    cases text with
    | nil => rfl
    | cons c rest => exact small c List.mem_cons_self
  rw [convert_eq, replaceLead_eq, withLead_small lead small, unifyBrand_small small, first, separate_small small,
    lower_eq_map narrow, toLower_unchanged small]

theorem convert_catalogueName (lead : Lead) (proper : isCatalogueName text = true) : convert lead text = text := by
  have joined : isJoined Form.isSmallAlphanum text = true := by
    cases text with
    | nil => rfl
    | cons c rest =>
      obtain ⟨first, tail⟩ := Bool.and_eq_true_iff.mp proper
      simp [isJoined, first, isJoined_of_tail (fun _ => id) (fun _ => id) tail]
  have each : ∀ c ∈ text, c.toNat < 128 ∧ c.isUpper = false := by
    intro c member
    rcases isJoined_chars joined c member with small | rfl
    · have point := alphanum_point (small_alphanum small)
      refine ⟨by omega, ?_⟩
      rw [Bool.eq_false_iff]
      intro upper
      rw [Form.isSmallAlphanum, upper_not_small upper] at small
      cases small
    · decide
  exact convert_small lead (fun c member => (each c member).1) fun c member => (each c member).2

theorem itemName_catalogueName (proper : isItemName text = true) : isCatalogueName text = true := by
  cases text with
  | nil => cases proper
  | cons c rest =>
    obtain ⟨first, tail⟩ := Bool.and_eq_true_iff.mp proper
    exact Bool.and_eq_true_iff.mpr ⟨by rw [Form.isSmallAlphanum, first, Bool.true_or], tail⟩

end

def unbranded (name : List Char) : List Char := if hasLead name then name.drop 6 else name

/-- What is left of the name of a type without the word in front. -/
structure Stem (name stem : List Char) : Prop where
  joined : isJoined Char.isAlphanum stem = true
  front : stem = [] ∨ stem.head?.any Char.isAlphanum = true
  empty : stem = [] ↔ name = "BACnet".toList
  letters : stem.filter (· != '-') = (unbranded name).filter (· != '-')

theorem typeName_joined {name : List Char} (proper : isTypeName name = true) :
    isJoined Char.isAlphanum name = true ∧ name.head?.any Char.isUpper = true := by
  cases name with
  | nil => cases proper
  | cons c rest =>
    obtain ⟨upper, tail⟩ := Bool.and_eq_true_iff.mp proper
    have joined : isJoined Char.isAlphanum rest = true := isJoined_of_tail (fun _ => id) (fun _ => upper_alphanum) tail
    exact ⟨by simp [isJoined, upper_alphanum upper, joined], upper⟩

theorem typeName_stem {name : List Char} (proper : isTypeName name = true) : Stem name (withLead .drop name) := by
  obtain ⟨joined, upper⟩ := typeName_joined proper
  rw [Lead.drop, withLead]
  split
  next hyphened =>
    obtain ⟨tail, rfl⟩ := List.isPrefixOf_iff_prefix.mp hyphened
    have dropped : isJoined Char.isAlphanum ('-' :: tail) = true := isJoined_drop joined 6
    rw [isJoined, Bool.and_eq_true] at dropped
    obtain ⟨first, rest⟩ := dropped
    have next : tail.head?.any Char.isAlphanum = true := by simpa using first
    have filled : tail ≠ [] := by
      rintro rfl
      cases next
    exact ⟨rest, .inr next, iff_of_false filled (by simp), rfl⟩
  next plain =>
    split
    next word =>
      obtain ⟨tail, rfl⟩ := List.isPrefixOf_iff_prefix.mp word
      have rest : isJoined Char.isAlphanum tail = true := isJoined_drop joined 6
      refine ⟨rest, ?_, ?_, rfl⟩
      · cases tail with
        | nil => exact .inl rfl
        | cons c tail =>
          have other : c ≠ '-' := by
            rintro rfl
            exact plain rfl
          exact .inr (isJoined_head rest (by simpa using other))
      · change tail = [] ↔ _
        simp
    next other =>
      have apart : hasLead name = false := Bool.eq_false_iff.mpr other
      refine ⟨joined, ?_, ?_, ?_⟩
      · cases name with
        | nil => exact .inl rfl
        | cons c rest => exact .inr (upper_alphanum upper)
      · refine iff_of_false ?_ ?_
        · rintro rfl
          cases upper
        · rintro rfl
          exact other rfl
      · rw [unbranded, apart]
        rfl

section
variable {name : String}

theorem ofType_stem (proper : isTypeName name.toList = true) :
    ∃ stem digits, Stem name.toList stem ∧
      (ofType name).toList = (separate (hyphenAfter digits) (unifyBrand stem)).map Char.toLower := by
  have narrow : ∀ c ∈ withLead .drop name.toList, c.toNat < 128 := by
    refine withLead_all ?_ (typeName_narrow proper)
    rintro _ ⟨⟩
    exact List.forall_mem_nil _
  refine ⟨_, (withLead .drop name.toList).head?.any Char.isUpper, typeName_stem proper, ?_⟩
  rw [ofType, String.toList_ofList, convert_eq, replaceLead_eq, lower_eq_map]
  exact separate_all (by decide) (unifyBrand_all (by simp) narrow) _

/-- Only `BACnet` is left without a name. -/
theorem ofType_empty (proper : isTypeName name.toList = true) : ofType name = "" ↔ name = "BACnet" := by
  obtain ⟨stem, digits, left, same⟩ := ofType_stem proper
  calc ofType name = "" ↔ (ofType name).toList = [] := String.toList_inj.symm
    _ ↔ stem = [] := by
        rw [same, List.map_eq_nil_iff, ← List.head?_eq_none_iff, separate_head, unifyBrand_head, List.head?_eq_none_iff]
    _ ↔ name.toList = "BACnet".toList := left.empty
    _ ↔ name = "BACnet" := String.toList_inj

theorem ofType_words (proper : isTypeName name.toList = true) (other : name ≠ "BACnet") :
    isCatalogueName (ofType name).toList = true := by
  obtain ⟨stem, digits, left, same⟩ := ofType_stem proper
  rw [same]
  apply isCatalogueName_of
  · exact toLower_joined (separate_joined (unifyBrand_joined left.joined) (hyphenAfter_between digits))
  · have front : stem.head?.any Char.isAlphanum = true :=
      left.front.resolve_left fun nothing => other (String.toList_inj.mp (left.empty.mp nothing))
    rw [List.head?_map, separate_head, unifyBrand_head, Option.any_map]
    obtain ⟨c, first, letter⟩ := (Option.any_eq_true _ _).mp front
    rw [first]
    exact toLower_small letter

/-- The letters and digits are those of the name without `BACnet` in front, in lower case. -/
theorem ofType_letters (proper : isTypeName name.toList = true) :
    (ofType name).toList.filter (· != '-') = ((unbranded name.toList).filter (· != '-')).map Char.toLower := by
  obtain ⟨stem, digits, left, same⟩ := ofType_stem proper
  rw [same, toLower_letters, separate_letters, ← toLower_letters, unifyBrand_lower, toLower_letters, left.letters]

end

end TypeCatalog.Proofs
