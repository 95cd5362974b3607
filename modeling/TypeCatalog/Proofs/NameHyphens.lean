import TypeCatalog.Proofs.DataParts
import TypeCatalog.Proofs.NameLetters

/-! Where hyphens are put into names. A name goes through several passes, each of which sees the hyphens of the ones before
it, but no pass makes or hides a place of another: the characters around a place in the name alone tell whether a hyphen
goes there. -/

namespace TypeCatalog.Proofs
open Name Text

/-- Puts a hyphen into every match, from left to right. A match is a character that ends a word and as many characters
after it as the width says; the next match starts behind it. The number counts what is left of the match before. -/
def substitute (isEnd : Char → List Char → Bool) (width : Nat) : Nat → List Char → List Char
  | _, [] => []
  | 0, c :: rest =>
    if isEnd c rest then c :: '-' :: substitute isEnd width width rest else c :: substitute isEnd width 0 rest
  | left + 1, c :: rest => c :: substitute isEnd width left rest

def Quiet (isEnd : Char → List Char → Bool) : Nat → List Char → Prop
  | 0, _ => True
  | _ + 1, [] => True
  | count + 1, c :: rest => isEnd c rest = false ∧ Quiet isEnd count rest

section
variable {isEnd first second : Char → List Char → Bool} {c : Char} {rest text : List Char}

private theorem substitute_quiet {width left : Nat} (apart : ∀ c rest, isEnd c rest = true → Quiet isEnd width rest)
    (quiet : Quiet isEnd left text) : substitute isEnd width left text = separate isEnd text := by
  induction text generalizing left with
  | nil => cases left <;> rfl
  | cons c rest ih =>
    cases left with
    | zero =>
      rw [substitute, separate]
      split
      next ends => rw [ih (apart c rest ends)]
      next => rw [@ih 0 trivial]
    | succ left =>
      obtain ⟨inside, quiet⟩ := quiet
      rw [substitute, separate, if_neg (by simp [inside]), ih quiet]

/-- If no match could start inside of another, none is missed. -/
theorem substitute_eq_separate {width : Nat} (apart : ∀ c rest, isEnd c rest = true → Quiet isEnd width rest) :
    substitute isEnd width 0 text = separate isEnd text :=
  substitute_quiet apart trivial

theorem separate_head (isEnd : Char → List Char → Bool) (text : List Char) : (separate isEnd text).head? = text.head? := by
  cases text with
  | nil => rfl
  | cons c rest =>
    rw [separate]
    split <;> rfl

/-- A second pass that does not look at hyphens, and that the first does not disturb elsewhere, can be made with the
first. -/
theorem separate_merge (atHyphen : ∀ rest, second '-' rest = false) (beforeHyphen : ∀ c rest, second c ('-' :: rest) = false)
    (undisturbed : ∀ c rest, second c (separate first rest) = second c rest) :
    separate second (separate first text) = separate (fun c rest => first c rest || second c rest) text := by
  induction text with
  | nil => rfl
  | cons c rest ih =>
    rw [separate, separate]
    cases first c rest with
    | true => simp [separate, atHyphen, beforeHyphen, ih]
    | false => simp [separate, undisturbed, ih]

end

section
variable {c : Char} {rest text : List Char}

theorem upper_not_small (upper : c.isUpper = true) : (c.isLower || c.isDigit) = false := by
  have point : 65 ≤ c.toNat ∧ c.toNat ≤ 90 := of_decide_eq_true upper
  have other : c.isDigit = false := by
    rw [Bool.eq_false_iff, ne_eq, Char.isDigit_iff_toNat]
    change ¬ (48 ≤ c.toNat ∧ c.toNat ≤ 57)
    omega
  rw [other, Bool.or_false, Bool.eq_false_iff]
  exact Char.not_isLower_of_isUpper upper

theorem alpha_not_digit (alpha : c.isAlpha = true) : isDigit c = false := by
  have point : 65 ≤ c.toNat ∧ c.toNat ≤ 122 := by
    rcases Bool.or_eq_true_iff.mp alpha with upper | lower
    · have range : 65 ≤ c.toNat ∧ c.toNat ≤ 90 := of_decide_eq_true upper
      omega
    · have range : (decide (97 ≤ c.toNat) && decide (c.toNat ≤ 122)) = true := lower
      simp only [Bool.and_eq_true, decide_eq_true_eq] at range
      omega
  rw [isDigit, digitValue?]
  change Option.isSome (if c.toNat < 128 then (if 48 ≤ c.toNat && c.toNat ≤ 57 then _ else _) else _) = false
  rw [if_pos (by omega), if_neg (by simp; omega)]
  rfl

theorem isDigit_narrow (narrow : c.toNat < 128) : isDigit c = c.isDigit := by
  rw [isDigit, digitValue?, Bool.eq_iff_iff, Char.isDigit_iff_toNat]
  change Option.isSome (if c.toNat < 128 then (if 48 ≤ c.toNat && c.toNat ≤ 57 then _ else _) else _) = true ↔
    48 ≤ c.toNat ∧ c.toNat ≤ 57
  rw [if_pos narrow]
  split <;> simp_all

private theorem capital_apart (c : Char) (rest : List Char) (ends : endsBeforeCapital c rest = true) :
    Quiet endsBeforeCapital 1 rest := by
  cases rest with
  | nil => trivial
  | cons next rest =>
    have upper : next.isUpper = true := (Bool.and_eq_true_iff.mp ends).2
    exact ⟨by rw [endsBeforeCapital, upper_not_small upper, Bool.false_and], trivial⟩

private theorem acronym_apart (c : Char) (rest : List Char) (ends : endsAcronym c rest = true) :
    Quiet endsAcronym 2 rest := by
  match rest with
  | [] => trivial
  | [next] => cases ends
  | next :: after :: rest =>
    rw [endsAcronym, Bool.and_eq_true] at ends
    have small : after.isUpper = false := Bool.eq_false_iff.mpr (Char.not_isUpper_of_isLower ends.2)
    refine ⟨?_, ?_, trivial⟩
    · cases rest <;> simp [endsAcronym, small]
    · cases rest with
      | nil => rfl
      | cons _ rest => cases rest <;> simp [endsAcronym, small]

private theorem digit_apart (c : Char) (rest : List Char) (ends : endsBeforeDigit c rest = true) :
    Quiet endsBeforeDigit 1 rest := by
  cases rest with
  | nil => trivial
  | cons next rest =>
    have digit : isDigit next = true := (Bool.and_eq_true_iff.mp ends).2
    refine ⟨?_, trivial⟩
    rw [endsBeforeDigit, Bool.and_eq_false_iff, Bool.eq_false_iff]
    exact .inl fun alpha => by simp [alpha_not_digit alpha] at digit

end

def hyphenAfter (digits : Bool) (c : Char) (rest : List Char) : Bool :=
  endsBeforeCapital c rest || endsAcronym c rest || digits && endsBeforeDigit c rest

/-- The three passes, each of which goes through the matches from left to right. -/
def passes (digits : Bool) (text : List Char) : List Char :=
  let words := substitute endsAcronym 2 0 (substitute endsBeforeCapital 1 0 text)
  if digits then substitute endsBeforeDigit 1 0 words else words

theorem passes_eq (digits : Bool) (text : List Char) :
    passes digits text =
      let words := separate endsAcronym (separate endsBeforeCapital text)
      if digits then separate endsBeforeDigit words else words := by
  simp only [passes, substitute_eq_separate capital_apart, substitute_eq_separate acronym_apart,
    substitute_eq_separate digit_apart]

private theorem acronym_undisturbed (c : Char) (rest : List Char) :
    endsAcronym c (separate endsBeforeCapital rest) = endsAcronym c rest := by
  match rest with
  | [] => rfl
  | [next] => simp [separate, endsBeforeCapital, endsAcronym]
  | next :: after :: rest =>
    rw [separate]
    split
    next ends =>
      have small : next.isUpper = false := by
        rw [Bool.eq_false_iff]
        intro upper
        rw [endsBeforeCapital, upper_not_small upper] at ends
        cases ends
      simp [endsAcronym, small]
    next =>
      rw [separate]
      split <;> rfl

theorem separate_digits (first : Char → List Char → Bool) (text : List Char) :
    separate endsBeforeDigit (separate first text) = separate (fun c rest => first c rest || endsBeforeDigit c rest) text := by
  apply separate_merge
  · intro rest
    rfl
  · intro c rest
    simp [endsBeforeDigit, isDigit, digitValue?]
  · intro c rest
    rw [endsBeforeDigit, endsBeforeDigit, separate_head]

/-- The passes together: one look at each place. -/
theorem separate_once (digits : Bool) (text : List Char) :
    (let words := separate endsAcronym (separate endsBeforeCapital text)
      if digits then separate endsBeforeDigit words else words) = separate (hyphenAfter digits) text := by
  have words : separate endsAcronym (separate endsBeforeCapital text) =
      separate (fun c rest => endsBeforeCapital c rest || endsAcronym c rest) text := by
    apply separate_merge
    · intro rest
      match rest with
      | [] | [_] | _ :: _ :: _ => rfl
    · intro c rest
      cases rest <;> simp [endsAcronym]
    · exact acronym_undisturbed
  cases digits with
  | false =>
    simp only [words, Bool.false_eq_true, if_false]
    congr 1
    funext c rest
    simp [hyphenAfter]
  | true =>
    simp only [words, separate_digits, if_true]
    congr 1

/-- The name that is made of a text, once the word in front of it is replaced. -/
theorem convert_eq (lead : Lead) (name : List Char) :
    convert lead name = lower (separate (hyphenAfter ((replaceLead lead name).head?.any Char.isUpper))
      (unifyBrand (replaceLead lead name))) := by
  rw [← separate_once]
  rfl

/-- Whether a hyphen goes behind a place: between a small letter or a digit and a capital, between two capitals of which
the second starts a word in small letters, and, if digits are words of their own, between a letter and a digit. -/
def breaksAt (digits : Bool) (text : List Char) (i : Nat) : Bool :=
  text[i]?.any (fun c => c.isLower || c.isDigit) && text[i + 1]?.any Char.isUpper ||
  text[i]?.any Char.isUpper && text[i + 1]?.any Char.isUpper && text[i + 2]?.any Char.isLower ||
  digits && text[i]?.any Char.isAlpha && text[i + 1]?.any Char.isDigit

/-- A text in lower case with a hyphen at every place for one. -/
def hyphenated (digits : Bool) (text : List Char) : List Char :=
  (text.mapIdx fun i c => if breaksAt digits text i then [c.toLower, '-'] else [c.toLower]).flatten

def brandAt (text : List Char) (i : Nat) : Bool := "BACnet".toList.isPrefixOf (text.drop i)

/-- Whether a place is that of the second or the third letter of `BACnet`. -/
def insideBrand (text : List Char) : Nat → Bool
  | 0 => false
  | 1 => brandAt text 0
  | i + 2 => brandAt text (i + 1) || brandAt text i

def branded (text : List Char) : List Char := text.mapIdx fun i c => if insideBrand text i then c.toLower else c

section
variable {digits : Bool} {c : Char} {rest text : List Char}

private theorem breaksAt_front (narrow : ∀ d ∈ rest, d.toNat < 128) :
    breaksAt digits (c :: rest) 0 = hyphenAfter digits c rest := by
  match rest with
  | [] => simp [breaksAt, hyphenAfter, endsBeforeCapital, endsAcronym, endsBeforeDigit]
  | [next] =>
    have same := isDigit_narrow (narrow next (by simp))
    simp [breaksAt, hyphenAfter, endsBeforeCapital, endsAcronym, endsBeforeDigit, same, Bool.and_assoc]
  | next :: after :: rest =>
    have same := isDigit_narrow (narrow next (by simp))
    simp [breaksAt, hyphenAfter, endsBeforeCapital, endsAcronym, endsBeforeDigit, same, Bool.and_assoc]

theorem separate_hyphenated (narrow : ∀ c ∈ text, c.toNat < 128) :
    (separate (hyphenAfter digits) text).map Char.toLower = hyphenated digits text := by
  induction text with
  | nil => rfl
  | cons c rest ih =>
    obtain ⟨-, others⟩ := List.forall_mem_cons.mp narrow
    have shifted : ∀ i, breaksAt digits (c :: rest) (i + 1) = breaksAt digits rest i := fun _ => rfl
    rw [hyphenated, List.mapIdx_cons, List.flatten_cons]
    simp only [shifted, breaksAt_front others]
    rw [← hyphenated, ← ih others, separate]
    split <;> rfl

private theorem insideBrand_shift (other : brandAt (c :: rest) 0 = false) (i : Nat) :
    insideBrand (c :: rest) (i + 1) = insideBrand rest i := by
  match i with
  | 0 => exact other
  | 1 =>
    change (brandAt rest 0 || brandAt (c :: rest) 0) = brandAt rest 0
    rw [other, Bool.or_false]
  | i + 2 => rfl

theorem unifyBrand_eq (text : List Char) : unifyBrand text = branded text := by
  fun_induction unifyBrand text with
  | case1 rest ih =>
    have shifted : ∀ i, insideBrand ('B' :: 'A' :: 'C' :: 'n' :: 'e' :: 't' :: rest) (i + 6) = insideBrand rest i := by
      intro i
      cases i with
      | zero => rfl
      | succ i =>
        cases i with
        | zero => exact Bool.or_false _
        | succ i => rfl
    rw [ih, branded, branded]
    simp only [List.mapIdx_cons, shifted]
    rfl
  | case2 c rest other ih =>
    have absent : brandAt (c :: rest) 0 = false := by
      rw [Bool.eq_false_iff]
      intro found
      obtain ⟨tail, same⟩ := List.isPrefixOf_iff_prefix.mp found
      obtain ⟨rfl, rfl⟩ : 'B' = c ∧ "ACnet".toList ++ tail = rest := List.cons.inj same
      exact other tail rfl rfl
    rw [ih, branded, branded, List.mapIdx_cons]
    simp only [insideBrand_shift absent]
    rfl
  | case3 => rfl

end

/-- The values that say what becomes of the word in front of a name, and what they say. -/
inductive Asks : Data → Lead → Prop where
  | keep : Asks .null .keep
  | drop : Asks (.bool false) (.replace [])
  | zero : Asks (.bool true) (.replace ['0', '-'])
  | number (n : Int) : Asks (.int n) (.replace (intDigits n ++ ['-']))
  | text (text : String) : Asks (.text text) (.replace text.toList)

/-- A name with the word in front of it replaced, and the hyphen after the word if there is one. -/
def withLead : Lead → List Char → List Char
  | .keep, name => name
  | .replace text, name =>
    if "BACnet-".toList.isPrefixOf name then text ++ name.drop 7
    else if "BACnet".toList.isPrefixOf name then text ++ name.drop 6
    else name

theorem replaceLead_eq (lead : Lead) (name : List Char) : replaceLead lead name = withLead lead name := by
  fun_cases replaceLead lead name with
  | case1 text rest => rfl
  | case2 text rest plain =>
    have other : "BACnet-".toList.isPrefixOf ("BACnet".toList ++ rest) = false := by
      rw [Bool.eq_false_iff]
      intro found
      obtain ⟨tail, same⟩ := List.isPrefixOf_iff_prefix.mp found
      exact plain tail (@List.append_cancel_left _ "BACnet".toList ('-' :: tail) rest same).symm
    rw [withLead]
    change _ = if "BACnet-".toList.isPrefixOf ("BACnet".toList ++ rest) = true then _ else _
    rw [other]
    rfl
  | case3 lead name hyphened plain =>
    cases lead with
    | keep => rfl
    | replace text =>
      rw [withLead, if_neg, if_neg]
      · intro found
        obtain ⟨tail, rfl⟩ := List.isPrefixOf_iff_prefix.mp found
        exact plain text tail rfl rfl
      · intro found
        obtain ⟨tail, rfl⟩ := List.isPrefixOf_iff_prefix.mp found
        exact hyphened text tail rfl rfl

section
variable {value : Data} {lead : Lead} {name : List Char} {accepts : Char → Prop}

theorem withLead_all (front : ∀ text, lead = .replace text → ∀ c ∈ text, accepts c) (all : ∀ c ∈ name, accepts c) :
    ∀ c ∈ withLead lead name, accepts c := by
  have behind (count : Nat) : ∀ c ∈ name.drop count, accepts c := fun c member => all c (List.mem_of_mem_drop member)
  cases lead with
  | keep => exact all
  | replace text =>
    rw [withLead]
    split
    · exact List.forall_mem_append.mpr ⟨front text rfl, behind 7⟩
    · split
      · exact List.forall_mem_append.mpr ⟨front text rfl, behind 6⟩
      · exact all

private theorem natDigits_narrow (n : Nat) : ∀ c ∈ natDigits n, c.toNat < 128 := by
  intro c member
  have point : 48 ≤ c.toNat ∧ c.toNat ≤ 57 := Char.isDigit_iff_toNat.mp (natDigits_ascii n c member)
  omega

theorem intDigits_narrow (n : Int) : ∀ c ∈ intDigits n, c.toNat < 128 := by
  rw [intDigits]
  split
  · exact List.forall_mem_cons.mpr ⟨by decide, natDigits_narrow _⟩
  · exact natDigits_narrow _

theorem Asks.narrow (asks : Asks value lead) (given : ∀ text, value = .text text → ∀ c ∈ text.toList, c.toNat < 128) :
    ∀ text, lead = .replace text → ∀ c ∈ text, c.toNat < 128 := by
  cases asks with
  | keep => exact fun _ other => nomatch other
  | drop | zero =>
    rintro _ ⟨⟩
    simp
  | number n =>
    rintro _ ⟨⟩
    exact List.forall_mem_append.mpr ⟨intDigits_narrow n, by simp⟩
  | text text =>
    rintro _ ⟨⟩
    exact given text rfl

/-- A value does what it says, except for a number that cannot be written. -/
theorem ofData_asks (asks : Asks value lead) (name : String) :
    ofData value (.text name) =
      if value.isWritable then .ok (String.ofList (convert lead name.toList)) else .error .tooManyDigits := by
  cases asks with
  | number n =>
    rw [ofData, leadOf?, Data.isWritable]
    split <;> rfl
  | _ => rfl

end

/-- The name made of a text, with the word in front of it as a value says, is the text in lower case with a hyphen at every
place for one and nowhere else. So the passes together do what one look at every place does, though each of them takes the
matches from left to right without overlaps and sees the hyphens of the one before. -/
theorem name_hyphenated {value : Data} {lead : Lead} {name : String} (asks : Asks value lead)
    (narrow : ∀ c ∈ name.toList, c.toNat < 128)
    (narrowValue : ∀ text, value = .text text → ∀ c ∈ text.toList, c.toNat < 128) :
    let changed := withLead lead name.toList
    let digits := changed.head?.any Char.isUpper
    ofData value (.text name) =
        (if value.isWritable then .ok (String.ofList (hyphenated digits (branded changed)))
          else .error .tooManyDigits) ∧
      (passes digits (branded changed)).map Char.toLower = hyphenated digits (branded changed) := by
  intro changed digits
  have all : ∀ c ∈ branded changed, c.toNat < 128 := by
    rw [← unifyBrand_eq]
    exact unifyBrand_all (by simp) (withLead_all (asks.narrow narrowValue) narrow)
  have once : (separate (hyphenAfter digits) (branded changed)).map Char.toLower = hyphenated digits (branded changed) :=
    separate_hyphenated all
  constructor
  · rw [ofData_asks asks, convert_eq, replaceLead_eq, unifyBrand_eq, ← once]
    rw [lower_eq_map (separate_all (by decide) all _)]
  · rw [passes_eq, separate_once, once]

/-- A text in front that starts with a capital, so that digits are words, and a second `BACnet`. -/
theorem name_hyphenated_text : ofData (.text "Ab") (.text "BACnet-cD1BACnetXYz") = .ok "abc-d-1-bacnet-x-yz" := by
  have narrow : ∀ c ∈ "BACnet-cD1BACnetXYz".toList, c.toNat < 128 := by simp
  have narrowValue : ∀ text, Data.text "Ab" = .text text → ∀ c ∈ text.toList, c.toNat < 128 := by
    rintro _ ⟨⟩
    simp
  exact (name_hyphenated (.text "Ab") narrow narrowValue).1.trans (by rfl)

theorem unwritten_limit : (Data.int (Nat.pow 10 digitLimit)).isWritable = false := by
  rw [Bool.eq_false_iff, ne_eq, writable_int, Int.natAbs_natCast]
  exact Nat.lt_irrefl _

/-- A number with too many digits is refused, whatever the text is. -/
theorem name_hyphenated_unwritten : ofData (.int (Nat.pow 10 digitLimit)) (.text "BACnetA") = .error .tooManyDigits := by
  rw [ofData_asks (.number _), unwritten_limit]
  rfl

end TypeCatalog.Proofs
