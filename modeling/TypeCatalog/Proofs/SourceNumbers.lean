import TypeCatalog.Proofs.SourceGrammar

/-! Readers in sequence, and reading numerals and bounds. A reader of these gives the number that a text spells, or finds
that it has too many digits, and it does not move. -/

namespace TypeCatalog.Proofs
open Source Text

theorem read_bind {α β : Type} {reader : Read α} {next : α → Read β} {cursor position : Cursor} {value : α}
    (read : reader cursor = .ok (value, position)) : (reader >>= next) cursor = next value position := by
  change (do let (value, position) ← reader cursor; next value position) = _
  rw [read]
  rfl

theorem read_bind_error {α β : Type} {reader : Read α} {next : α → Read β} {cursor : Cursor} {fault : Fault}
    (read : reader cursor = .error fault) : (reader >>= next) cursor = .error fault := by
  change (do let (value, position) ← reader cursor; next value position) = _
  rw [read]
  rfl

theorem skip_bind {β : Type} (next : Skip → Read β) (cursor : Cursor) :
    (Read.skip >>= next) cursor = next cursor.skip.1 cursor.skip.2 :=
  read_bind rfl

theorem natural_eq (digits : List Char) (cursor : Cursor) :
    Read.natural digits cursor =
      if digits.length ≤ digitLimit then .ok (digitsValue digits, cursor) else .error .tooManyDigits := by
  simp only [Read.natural, readNat?]
  by_cases short : digits.length ≤ digitLimit
  · simp only [short, if_true]
  · simp only [short, if_false]

private theorem ne_of_front {c : Char} {word text : List Char} (other : opens (· == c) text = false) :
    (text == c :: word) = false := by
  cases text with
  | nil => rfl
  | cons d text =>
    have different : (d == c) = false := other
    simp only [List.cons_beq_cons, different, Bool.false_and]

private theorem takeSign_eq {mark body : List Char} {negative : Bool} (sign : Sign mark negative)
    (plus : opens (· == '+') body = false) (minus : opens (· == '-') body = false) :
    Decimal.takeSign (mark ++ body) = (negative, body) := by
  cases sign with
  | absent =>
    rw [List.nil_append, Decimal.takeSign]
    · rintro rest rfl
      cases minus
    · rintro rest rfl
      cases plus
  | plus | minus => rfl

private theorem digits_no_point {digits : List Char} (proper : Digits digits) : digits.contains '.' = false := by
  simp only [List.contains_eq_mem, decide_eq_false_iff_not]
  intro member
  exact absurd (proper.all '.' member) (by decide)

private theorem count_digits {digits : List Char} (proper : Digits digits) : digits.countP isDigit = digits.length :=
  List.countP_eq_length.mpr proper.all

private theorem sign_no_digit {mark : List Char} {negative : Bool} (sign : Sign mark negative) :
    mark.countP isDigit = 0 ∧ mark.contains '.' = false := by
  cases sign <;> decide

theorem legible_whole {mark digits : List Char} {negative : Bool} (sign : Sign mark negative)
    (proper : Digits digits) : legible (mark ++ digits) = decide (digits.length ≤ digitLimit) := by
  obtain ⟨none, point⟩ := sign_no_digit sign
  have smooth : (mark ++ digits).contains '.' = false := by
    have rest := digits_no_point proper
    simp only [List.contains_eq_mem, decide_eq_false_iff_not, List.mem_append] at point rest ⊢
    exact fun member => member.elim point rest
  rw [legible, smooth, Bool.false_or, List.countP_append, none, count_digits proper, Nat.zero_add]

theorem legible_fraction {mark whole places : List Char} : legible (mark ++ (whole ++ '.' :: places)) = true := by
  simp [legible]

/-- The text of a number is neither of the words, and a sign in front of it is taken off. -/
private theorem bound_number {mark digits tail : List Char} {negative : Bool} (sign : Sign mark negative)
    (proper : Digits digits) (cursor : Cursor) :
    Read.bound (mark ++ (digits ++ tail)) cursor =
      (if (digits ++ tail).contains '.' then
        pure (.real (Decimal.ofDigits negative ((digits ++ tail).takeWhile (· != '.'))
          (((digits ++ tail).dropWhile (· != '.')).drop 1) 0).toDouble)
      else do
        let value ← Read.natural (digits ++ tail)
        return .int (if negative then -(value : Int) else value) : Read Bound) cursor := by
  have other := sign_no_word sign proper tail
  rw [List.append_assoc] at other
  have least : (mark ++ (digits ++ tail) == "MIN".toList) = false := ne_of_front other
  have greatest : (mark ++ (digits ++ tail) == "MAX".toList) = false := ne_of_front other
  obtain ⟨plus, minus⟩ := digit_no_sign proper tail
  simp only [Read.bound, least, greatest, takeSign_eq sign plus minus, Bool.false_eq_true, if_false]

/-- A bound is read as what its text denotes, unless it is an integer with too many digits. -/
theorem bound_eq {text : List Char} {bound : Bound} (denotes : Denotes text bound) (cursor : Cursor) :
    Read.bound text cursor = if legible text then .ok (bound, cursor) else .error .tooManyDigits := by
  cases denotes with
  | lowest | highest => rfl
  | @whole mark digits negative sign proper =>
    have read := @bound_number mark digits [] negative sign proper cursor
    rw [List.append_nil, digits_no_point proper] at read
    rw [read, legible_whole sign proper]
    have number := natural_eq digits cursor
    by_cases short : digits.length ≤ digitLimit
    · simp only [short, if_true, decide_true] at number ⊢
      rw [if_neg Bool.false_ne_true, read_bind number]
      rfl
    · simp only [short, if_false, decide_false] at number ⊢
      rw [if_neg Bool.false_ne_true, read_bind_error number]
      rfl
  | @fraction mark whole places negative sign proper tail =>
    have before : ∀ c ∈ whole, (c != '.') = true := by
      intro c member
      rw [bne_iff_ne]
      rintro rfl
      exact absurd (proper.all '.' member) (by decide)
    have point : (whole ++ '.' :: places).contains '.' = true := by simp
    rw [bound_number sign proper cursor, point, if_pos rfl, List.takeWhile_append_of_pos before,
      List.dropWhile_append_of_pos before, legible_fraction]
    simp only [List.takeWhile_cons, List.dropWhile_cons, bne_self_eq_false, Bool.false_eq_true, if_false, if_true,
      List.append_nil, List.drop_succ_cons, List.drop_zero]
    rfl

end TypeCatalog.Proofs
