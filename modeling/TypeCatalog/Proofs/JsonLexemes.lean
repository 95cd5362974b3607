import Mathlib.Data.List.Basic
import TypeCatalog.Json.Read
import TypeCatalog.Json.Write
import TypeCatalog.Proofs.Numerals

/-! Strings and integers in JSON text. A string that is written is read back as it is, whatever follows it, and so is an
integer if nothing follows that goes on with a number. -/

namespace TypeCatalog.Proofs
open Json Text

private theorem hexValue_lowerHexDigit : ∀ digit < 16, hexValue? (lowerHexDigit digit) = some digit := by
  decide

/-- Four digits spell every unit. -/
private theorem unit_hex {unit : Nat} (small : unit < 0x10000) :
    ∃ a b c d, hex lowerHexDigit 4 unit = [a, b, c, d] ∧ unit? a b c d = some unit := by
  refine ⟨_, _, _, _, rfl, ?_⟩
  have digit (n : Nat) := hexValue_lowerHexDigit (n % 16) (Nat.mod_lt _ (by decide))
  simp only [unit?, takeHex, digit, Option.bind_some, Option.map_some, Option.some.injEq]
  omega

/-- The units that a character is written in: itself, or a pair beyond the first 65536. -/
def unitsOf (c : Char) : List Nat :=
  if c.toNat < 0x10000 then [c.toNat] else [(surrogates c.toNat).1, (surrogates c.toNat).2]

private theorem char_point (c : Char) : c.toNat < 0xD800 ∨ 0xDFFF < c.toNat ∧ c.toNat < 0x110000 := c.valid

private def withUnits (units : List Nat) (read : Option (List Nat × List Char)) : Option (List Nat × List Char) :=
  read.map fun (more, rest) => (units ++ more, rest)

section
variable {c : Char} {rest text : List Char}

private theorem readUnits_unit {unit : Nat} (small : unit < 0x10000) :
    readUnits (escapedUnit unit ++ rest) = withUnits [unit] (readUnits rest) := by
  obtain ⟨a, b, c, d, digits, read⟩ := unit_hex small
  rw [escapedUnit, digits]
  simp only [List.cons_append, List.nil_append, readUnits, read, withUnits]
  cases readUnits rest <;> rfl

private theorem readUnits_letter {point : Nat} (apart : c ≠ 'u') (known : escapeValue? c = some point) :
    readUnits ('\\' :: c :: rest) = withUnits [point] (readUnits rest) := by
  rw [readUnits.eq_4 c rest fun _ _ _ _ _ same _ => apart same, known]
  cases read : readUnits rest <;> rfl

private theorem readUnits_plain (quote : c ≠ '"') (backslash : c ≠ '\\') (printable : 0x20 ≤ c.toNat) :
    readUnits (c :: rest) = withUnits [c.toNat] (readUnits rest) := by
  rw [readUnits.eq_5 c rest quote (fun _ _ _ _ _ same _ => backslash same) fun _ _ same _ => backslash same,
    if_neg (Nat.not_lt.mpr printable)]
  cases read : readUnits rest <;> rfl

/-- A character is read in its units, however it is escaped. -/
private theorem readUnits_escaped (c : Char) (rest : List Char) :
    readUnits (escapedChar c ++ rest) = withUnits (unitsOf c) (readUnits rest) := by
  by_cases quote : c = '"'
  · subst quote
    exact readUnits_letter (by decide) rfl
  by_cases backslash : c = '\\'
  · subst backslash
    exact readUnits_letter (by decide) rfl
  by_cases feed : c = '\n'
  · subst feed
    exact readUnits_letter (by decide) rfl
  by_cases back : c = '\r'
  · subst back
    exact readUnits_letter (by decide) rfl
  by_cases tab : c = '\t'
  · subst tab
    exact readUnits_letter (by decide) rfl
  by_cases page : c = '\x0c'
  · subst page
    exact readUnits_letter (by decide) rfl
  by_cases delete : c = '\x08'
  · subst delete
    exact readUnits_letter (by decide) rfl
  simp only [escapedChar, beq_iff_eq, quote, backslash, feed, back, tab, page, delete, if_false]
  by_cases printable : (' ' ≤ c && c ≤ '~') = true
  · rw [Bool.and_eq_true, decide_eq_true_eq, decide_eq_true_eq] at printable
    have low : 0x20 ≤ c.toNat := UInt32.le_iff_toNat_le.mp printable.1
    have high : c.toNat ≤ 0x7e := UInt32.le_iff_toNat_le.mp printable.2
    rw [if_pos (by simpa using printable), unitsOf, if_pos (by omega)]
    exact readUnits_plain quote backslash low
  · rw [if_neg printable, unitsOf]
    split
    next small => exact readUnits_unit small
    next wide =>
      have point := char_point c
      rw [List.append_assoc, readUnits_unit (by simp only [surrogates]; omega), readUnits_unit (by simp only [surrogates]; omega)]
      cases readUnits rest <;> rfl

private theorem readUnits_text (text rest : List Char) :
    readUnits (text.flatMap escapedChar ++ '"' :: rest) = some (text.flatMap unitsOf, rest) := by
  induction text with
  | nil => rfl
  | cons c text ih =>
    rw [List.flatMap_cons, List.append_assoc, readUnits_escaped, ih]
    rfl

private theorem joinUnits_pair {high low : Nat} (units : List Nat) (first : 0xD800 ≤ high ∧ high < 0xDC00)
    (second : 0xDC00 ≤ low ∧ low < 0xE000) : joinUnits (high :: low :: units) =
      Char.ofNat (0x10000 + (high - 0xD800) * 0x400 + (low - 0xDC00)) :: joinUnits units := by
  rw [joinUnits, if_pos (by simp [first, second])]

private theorem joinUnits_char (c : Char) (units : List Nat) : joinUnits (unitsOf c ++ units) = c :: joinUnits units := by
  have point := char_point c
  rw [unitsOf]
  split
  next small =>
    have whole : charOf c.toNat = c := by
      rw [charOf, if_neg (by simp only [Bool.and_eq_true, decide_eq_true_eq]; omega), Char.ofNat_toNat]
    cases units with
    | nil => exact congrArg (· :: []) whole
    | cons unit units =>
      change joinUnits (c.toNat :: unit :: units) = _
      rw [joinUnits, if_neg (by simp only [Bool.and_eq_true, decide_eq_true_eq]; omega), whole]
  next wide =>
    have first : 0xD800 ≤ (surrogates c.toNat).1 ∧ (surrogates c.toNat).1 < 0xDC00 := by
      simp only [surrogates]
      omega
    have second : 0xDC00 ≤ (surrogates c.toNat).2 ∧ (surrogates c.toNat).2 < 0xE000 := by
      simp only [surrogates]
      omega
    have joined : 0x10000 + ((surrogates c.toNat).1 - 0xD800) * 0x400 + ((surrogates c.toNat).2 - 0xDC00) = c.toNat := by
      simp only [surrogates]
      omega
    rw [List.cons_append, List.cons_append, List.nil_append, joinUnits_pair units first second, joined, Char.ofNat_toNat]

private theorem joinUnits_text (text : List Char) : joinUnits (text.flatMap unitsOf) = text := by
  induction text with
  | nil => rfl
  | cons c text ih => rw [List.flatMap_cons, joinUnits_char, ih]

theorem readString_written (text : String) (rest : List Char) :
    ∃ body, writeString text.toList ++ rest = '"' :: body ∧ readString body = .ok (text, rest) := by
  refine ⟨text.toList.flatMap escapedChar ++ '"' :: rest, by simp [writeString], ?_⟩
  rw [readString, readUnits_text]
  simp only [joinUnits_text, String.ofList_toList]

def EndsNumber (rest : List Char) : Prop :=
  ∀ c ∈ rest.head?, c.isDigit = false ∧ c ≠ '.' ∧ c ≠ 'e' ∧ c ≠ 'E'

private theorem EndsNumber.whole (ends : EndsNumber rest) :
    rest.takeWhile Char.isDigit = [] ∧ rest.dropWhile Char.isDigit = rest := by
  cases rest with
  | nil => exact ⟨rfl, rfl⟩
  | cons c rest =>
    have other := (ends c rfl).1
    exact ⟨by rw [List.takeWhile_cons, other]; rfl, by rw [List.dropWhile_cons, other]; rfl⟩

private theorem EndsNumber.integral (ends : EndsNumber rest) : takeFraction rest = none ∧ takeExponent rest = none := by
  cases rest with
  | nil => exact ⟨rfl, rfl⟩
  | cons c rest =>
    obtain ⟨-, point, small, large⟩ := ends c rfl
    refine ⟨?_, by simp [takeExponent, small, large]⟩
    rw [takeFraction]
    rintro tail same
    cases same
    exact point rfl

private theorem takeWhole_natDigits (n : Nat) (ends : EndsNumber rest) :
    takeWhole (natDigits n ++ rest) = some (natDigits n, rest) := by
  rcases Nat.eq_zero_or_pos n with rfl | positive
  · rfl
  · obtain ⟨c, more, front, nonzero⟩ := natDigits_front n positive
    have ascii := natDigits_ascii n
    have digits : (natDigits n ++ rest).takeWhile Char.isDigit = natDigits n := by
      rw [List.takeWhile_append_of_pos ascii, ends.whole.1, List.append_nil]
    have others : (natDigits n ++ rest).dropWhile Char.isDigit = rest := by
      rw [List.dropWhile_append_of_pos ascii, ends.whole.2]
    rw [takeWhole.eq_2]
    · rw [digits, others, if_neg (by simp [front])]
    · intro tail same
      rw [front] at same
      cases same
      exact nonzero rfl

private theorem readNumber_whole {n : Nat} (short : (natDigits n).length ≤ digitLimit) (ends : EndsNumber rest) :
    readNumber (natDigits n ++ rest) = .ok (.int n, rest) ∧
      readNumber ('-' :: natDigits n ++ rest) = .ok (.int (-n), rest) := by
  have whole := takeWhole_natDigits n ends
  obtain ⟨fraction, exponent⟩ := ends.integral
  have value : readNat? (natDigits n) = some n := by rw [readNat?, if_pos short, digitsValue_natDigits]
  refine ⟨?_, ?_⟩
  · unfold readNumber
    split
    next negative body sign =>
      split at sign
      next tail same =>
        have digit := natDigits_ascii n
        cases front : natDigits n with
        | nil => exact absurd front Nat.toDigits_ne_nil
        | cons c more =>
          rw [front] at same digit
          cases same
          exact absurd (digit '-' List.mem_cons_self) (by decide)
      next =>
        cases sign
        simp only [whole, fraction, exponent, value, Option.map_none, Option.getD_none, Option.isNone_none, Bool.and_self,
          if_true, Bool.false_eq_true, if_false]
  · unfold readNumber
    simp only [List.cons_append, whole, fraction, exponent, value, Option.map_none, Option.getD_none, Option.isNone_none,
      Bool.and_self, if_true]

private theorem readValue_unmarked {steps : Nat} (unmarked : ∀ c ∈ text.head?, c ≠ '"' ∧ c ≠ '\x7b' ∧ c ≠ '[') :
    readValue (steps + 1) text = match readWord? text with
      | some result => .ok result
      | none => readNumber text := by
  have apart : ∀ c rest, text = c :: rest → c ≠ '"' ∧ c ≠ '\x7b' ∧ c ≠ '[' := by
    rintro c rest rfl
    exact unmarked c rfl
  exact readValue.eq_5 text steps (fun _ same => (apart _ _ same).1 rfl) (fun _ same => (apart _ _ same).2.1 rfl)
    (fun _ same => (apart _ _ same).2.2 rfl)

private theorem digit_no_word {c : Char} (digit : c.isDigit = true) :
    readWord? (c :: rest) = none ∧ readWord? ('-' :: c :: rest) = none := by
  have apart (d : Char) (other : d.isDigit = false) : (d == c) = false := by
    rw [beq_eq_false_iff_ne]
    rintro rfl
    rw [digit] at other
    cases other
  constructor
  · simp [readWord?, words, List.isPrefixOf?, apart 'n' rfl, apart 't' rfl, apart 'f' rfl, apart 'N' rfl, apart 'I' rfl,
      apart '-' rfl]
  · simp [readWord?, words, List.isPrefixOf?, apart 'I' rfl]

private theorem digit_unmarked {c : Char} (digit : c.isDigit = true) : c ≠ '"' ∧ c ≠ '\x7b' ∧ c ≠ '[' := by
  refine ⟨?_, ?_, ?_⟩ <;> rintro rfl <;> cases digit

theorem readValue_int {n : Int} {steps : Nat} (short : (natDigits n.natAbs).length ≤ digitLimit) (ends : EndsNumber rest) :
    readValue (steps + 1) (intDigits n ++ rest) = .ok (.int n, rest) := by
  obtain ⟨natural, negative⟩ := readNumber_whole short ends
  have ascii := natDigits_ascii n.natAbs
  cases front : natDigits n.natAbs with
  | nil => exact absurd front Nat.toDigits_ne_nil
  | cons c more =>
    rw [front] at ascii natural negative
    have digit := ascii c List.mem_cons_self
    obtain ⟨wordless, signless⟩ := @digit_no_word (more ++ rest) c digit
    rw [intDigits, front]
    split
    next below =>
      rw [readValue_unmarked (by rintro _ ⟨⟩; decide), List.cons_append, List.cons_append, signless]
      change readNumber ('-' :: c :: more ++ rest) = _
      rw [negative]
      congr
      omega
    next above =>
      rw [readValue_unmarked (by rintro _ ⟨⟩; exact digit_unmarked digit), List.cons_append, wordless]
      change readNumber (c :: more ++ rest) = _
      rw [natural]
      congr
      omega

end

end TypeCatalog.Proofs
