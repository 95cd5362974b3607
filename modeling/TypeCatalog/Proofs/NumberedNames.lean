import TypeCatalog.Proofs.NameWords

/-! Names with a number in place of the word in front. The name behind the number is the one without the word, but for
the hyphens between letters and digits: a text that starts with a number does not start with a capital letter. -/

namespace TypeCatalog.Proofs
open Name Source Text

def hasEnd (isEnd : Char → List Char → Bool) : List Char → Bool
  | c :: rest => isEnd c rest || hasEnd isEnd rest
  | [] => false

section
variable {isEnd : Char → List Char → Bool} {text : List Char}

theorem separate_length (isEnd : Char → List Char → Bool) (text : List Char) :
    text.length ≤ (separate isEnd text).length := by
  induction text with
  | nil => exact Nat.le_refl _
  | cons c rest ih =>
    rw [separate]
    split <;> simp only [List.length_cons] <;> omega

theorem separate_eq_self : separate isEnd text = text ↔ hasEnd isEnd text = false := by
  induction text with
  | nil => exact iff_of_true rfl rfl
  | cons c rest ih =>
    rw [separate, hasEnd, Bool.or_eq_false_iff, ← ih]
    cases isEnd c rest with
    | false => simp
    | true =>
      have longer : '-' :: separate isEnd rest ≠ rest := by
        intro same
        have bound := separate_length isEnd rest
        have length := congrArg List.length same
        rw [List.length_cons] at length
        omega
      simp [longer]

end

private theorem isDigit_upper {c : Char} (upper : c.isUpper = true) : isDigit c = false := by
  have point : 65 ≤ c.toNat ∧ c.toNat ≤ 90 := of_decide_eq_true upper
  rw [isDigit_narrow (by omega)]
  exact (Bool.or_eq_false_iff.mp (upper_not_small upper)).2

private theorem isAlpha_toLower (c : Char) : c.toLower.isAlpha = c.isAlpha := by
  rw [Char.isAlpha, Char.isUpper_toLower_eq_false, Bool.false_or, Char.isLower_toLower_eq_isAlpha]

private theorem isDigit_toLower (c : Char) : isDigit c.toLower = isDigit c := by
  by_cases upper : c.isUpper = true
  · have point : 65 ≤ c.toNat ∧ c.toNat ≤ 90 := of_decide_eq_true upper
    have alpha : c.toLower.isAlpha = true := by rw [isAlpha_toLower, Char.isAlpha, upper, Bool.true_or]
    rw [isDigit_upper upper]
    exact alpha_not_digit alpha
  · rw [Char.toLower_eq_of_not_isUpper upper]

theorem endsBeforeDigit_toLower (c : Char) (rest : List Char) :
    endsBeforeDigit c.toLower (rest.map Char.toLower) = endsBeforeDigit c rest := by
  simp only [endsBeforeDigit, isAlpha_toLower, List.head?_map, Option.any_map, isDigit_toLower]

theorem hasDigit_toLower (text : List Char) :
    hasEnd endsBeforeDigit (text.map Char.toLower) = hasEnd endsBeforeDigit text := by
  induction text with
  | nil => rfl
  | cons c rest ih => rw [List.map_cons, hasEnd, hasEnd, endsBeforeDigit_toLower, ih]

theorem separate_toLower (text : List Char) :
    separate endsBeforeDigit (text.map Char.toLower) = (separate endsBeforeDigit text).map Char.toLower := by
  induction text with
  | nil => rfl
  | cons c rest ih =>
    rw [List.map_cons, separate, separate, endsBeforeDigit_toLower, ih]
    split <;> rfl

private theorem capital_behind {c : Char} {rest : List Char} (ends : hyphenAfter false c rest = true) :
    rest.head?.any Char.isUpper = true := by
  rw [hyphenAfter, Bool.false_and, Bool.or_false, Bool.or_eq_true] at ends
  rcases ends with capital | acronym
  · exact (Bool.and_eq_true_iff.mp capital).2
  · cases rest with
    | nil => cases acronym
    | cons next rest =>
      cases rest with
      | nil => cases acronym
      | cons after rest =>
        rw [endsAcronym, Bool.and_eq_true, Bool.and_eq_true] at acronym
        exact acronym.1.2

/-- Hyphens in front of capitals do not come between letters and digits. -/
theorem hasDigit_separate (text : List Char) :
    hasEnd endsBeforeDigit (separate (hyphenAfter false) text) = hasEnd endsBeforeDigit text := by
  induction text with
  | nil => rfl
  | cons c rest ih =>
    rw [separate, hasEnd]
    split
    next ends =>
      have apart : endsBeforeDigit c rest = false := by
        cases rest with
        | nil => exact Bool.and_false _
        | cons d rest =>
          have upper : d.isUpper = true := capital_behind ends
          simp [endsBeforeDigit, isDigit_upper upper]
      rw [hasEnd, hasEnd, ih, apart]
      simp [endsBeforeDigit, isDigit, digitValue?]
    next => rw [hasEnd, ih, endsBeforeDigit, separate_head, ← endsBeforeDigit]

/-- A name in words of small letters and digits, which are not kept apart from each other. -/
def plainWords (name : List Char) : List Char := (separate (hyphenAfter false) (unifyBrand name)).map Char.toLower

theorem hasDigit_plainWords (name : List Char) :
    hasEnd endsBeforeDigit (plainWords name) = hasEnd endsBeforeDigit name := by
  calc hasEnd endsBeforeDigit (plainWords name) = hasEnd endsBeforeDigit (unifyBrand name) := by
        rw [plainWords, hasDigit_toLower, hasDigit_separate]
    _ = hasEnd endsBeforeDigit ((unifyBrand name).map Char.toLower) := (hasDigit_toLower _).symm
    _ = hasEnd endsBeforeDigit name := by rw [unifyBrand_lower, hasDigit_toLower]

theorem hyphenAfter_digits : hyphenAfter true = fun c rest => hyphenAfter false c rest || endsBeforeDigit c rest := by
  funext c rest
  simp [hyphenAfter]

section
variable {front name : List Char}

theorem withLead_word (front : List Char) (proper : isTypeName name = true) :
    withLead (.replace front) ("BACnet".toList ++ name) = front ++ name := by
  have hyphened : "BACnet-".toList.isPrefixOf ("BACnet".toList ++ name) = false := by
    cases name with
    | nil => rfl
    | cons c rest =>
      have other : c ≠ '-' := by
        rintro rfl
        cases proper
      simp [List.isPrefixOf, other.symm]
  rw [withLead, hyphened]
  rfl

theorem convert_dropped (proper : isTypeName name = true) :
    convert (.replace []) ("BACnet".toList ++ name) = separate endsBeforeDigit (plainWords name) := by
  have narrow := typeName_narrow proper
  have capital := (typeName_joined proper).2
  rw [convert_eq, replaceLead_eq, withLead_word [] proper, List.nil_append, capital]
  rw [lower_eq_map (separate_all (by decide) (unifyBrand_all (by simp) narrow) _)]
  rw [plainWords, separate_toLower, separate_digits, ← hyphenAfter_digits]

/-- A text that ends with a hyphen and has no capital letter is put in front of the name as it is. -/
theorem convert_fronted (proper : isTypeName name = true) (small : ∀ c ∈ front, c.isUpper = false)
    (slim : ∀ c ∈ front, c.toNat < 128) :
    convert (.replace (front ++ ['-'])) ("BACnet".toList ++ name) = front ++ '-' :: plainWords name := by
  have ended : ∀ c ∈ front ++ ['-'], c.isUpper = false ∧ c.toNat < 128 := by
    rw [List.forall_mem_append]
    exact ⟨fun c member => ⟨small c member, slim c member⟩, by simp⟩
  have first : (front ++ ['-'] ++ name).head?.any Char.isUpper = false := by
    cases front with
    | nil => rfl
    | cons c rest => exact small c List.mem_cons_self
  have narrow : ∀ c ∈ front ++ ['-'] ++ unifyBrand name, c.toNat < 128 :=
    List.forall_mem_append.mpr
      ⟨fun c member => (ended c member).2, unifyBrand_all (by simp) (typeName_narrow proper)⟩
  have hyphen : hyphenAfter false '-' (unifyBrand name) = false := by
    cases unifyBrand name with
    | nil => rfl
    | cons c rest => cases rest <;> simp [hyphenAfter, endsBeforeCapital, endsAcronym]
  rw [convert_eq, replaceLead_eq, withLead_word _ proper, first, unifyBrand_append fun c member => (ended c member).1]
  rw [lower_eq_map (separate_all (by decide) narrow _), List.append_assoc, separate_append small rfl, List.map_append]
  rw [toLower_unchanged small, List.singleton_append, separate, hyphen]
  rfl

end

private theorem natDigits_small (n : Nat) : ∀ c ∈ natDigits n, c.isUpper = false := by
  intro c member
  rw [Bool.eq_false_iff]
  intro upper
  have digit := (Bool.or_eq_false_iff.mp (upper_not_small upper)).2
  rw [natDigits_ascii n c member] at digit
  cases digit

theorem intDigits_small (n : Int) : ∀ c ∈ intDigits n, c.isUpper = false := by
  rw [intDigits]
  split
  · exact List.forall_mem_cons.mpr ⟨by decide, natDigits_small _⟩
  · exact natDigits_small _

/-- A name is converted in the same way for every number that the word in front is replaced by, and for true, which counts
as zero. Without the word it is the same name once more divided into words, between letters and digits. So only names with
no letter directly in front of a digit are the same behind a number and without one. -/
theorem name_numbered {name : String} (proper : isTypeName name.toList = true) :
    ∃ plain divided : List Char, divided = separate endsBeforeDigit plain ∧
      (divided = plain ↔ hasEnd endsBeforeDigit name.toList = false) ∧
      ofData (.bool false) (.text ("BACnet" ++ name)) = .ok (String.ofList divided) ∧
      ofData (.bool true) (.text ("BACnet" ++ name)) = .ok (String.ofList ('0' :: '-' :: plain)) ∧
      ∀ n, ofData (.int n) (.text ("BACnet" ++ name)) =
        if (Data.int n).isWritable then .ok (String.ofList (intDigits n ++ '-' :: plain)) else .error .tooManyDigits := by
  refine ⟨plainWords name.toList, _, rfl, ?_, ?_, ?_, ?_⟩
  · rw [separate_eq_self, hasDigit_plainWords]
  · rw [ofData_asks .drop, String.toList_append, convert_dropped proper]
    rfl
  · have zero := @convert_fronted ['0'] _ proper (by simp) (by simp)
    rw [ofData_asks .zero, String.toList_append]
    exact congrArg (fun name => Except.ok (String.ofList name)) zero
  · intro n
    rw [ofData_asks (.number n), String.toList_append, convert_fronted proper (intDigits_small n) (intDigits_narrow n)]

/-- A letter in front of a digit, which only the name without a number keeps apart. -/
theorem name_numbered_week : ∃ plain divided : List Char, divided ≠ plain ∧
    ofData (.bool false) (.text "BACnetWeek7") = .ok (String.ofList divided) ∧
    ofData (.int 42) (.text "BACnetWeek7") = .ok (String.ofList ("42-".toList ++ plain)) := by
  have proper : isTypeName "Week7".toList = true := by decide
  obtain ⟨plain, divided, -, same, dropped, -, numbered⟩ := name_numbered proper
  refine ⟨plain, divided, ?_, dropped, numbered 42⟩
  intro equal
  exact absurd (same.mp equal) (by decide)

/-- What stands behind the number is not the name without it. -/
theorem name_joined_digit : isTypeName "A1".toList = true ∧ ofData (.bool false) (.text "BACnetA1") = .ok "a-1" ∧
    ofData (.int 1) (.text "BACnetA1") = .ok "1-a1" ∧ ofData (.bool true) (.text "BACnetA1") = .ok "0-a1" :=
  ⟨by decide, rfl, rfl, rfl⟩

end TypeCatalog.Proofs
