import Mathlib.Data.List.Induction
import TypeCatalog.Number.Decimal

/-! Decimal digits of numbers. They spell the number that they come from, without a zero in front, and their count bounds
it. -/

namespace TypeCatalog.Proofs
open Text

theorem digit_of_ascii {c : Char} (digit : c.isDigit = true) : isDigit c = true := by
  simp only [Char.isDigit, Bool.and_eq_true, decide_eq_true_eq, ge_iff_le, UInt32.le_iff_toNat_le] at digit
  have range : 48 ≤ c.toNat ∧ c.toNat ≤ 57 := digit
  have small : c.toNat < 128 := by omega
  simp [isDigit, digitValue?, small, range]

theorem natDigits_ascii (n : Nat) : ∀ c ∈ natDigits n, c.isDigit = true :=
  fun _ member => Nat.isDigit_of_mem_toDigits (by decide) (by decide) member

private theorem digitValue_digitChar : ∀ d < 10, digitValue? d.digitChar = some d := by
  decide

theorem digitsValue_natDigits (n : Nat) : digitsValue (natDigits n) = n := by
  induction n using Nat.strongRecOn with
  | ind n ih =>
    by_cases small : n < 10
    · rw [natDigits, Nat.toDigits_of_lt_base small]
      simp [digitsValue, digitValue_digitChar n small]
    · have front := ih (n / 10) (by omega)
      have last := digitValue_digitChar (n % 10) (by omega)
      rw [natDigits, digitsValue] at front
      rw [natDigits, Nat.toDigits_of_base_le (by decide) (by omega), digitsValue, List.foldl_append, front]
      simp only [List.foldl_cons, List.foldl_nil, last, Option.getD_some]
      omega

theorem natDigits_front (n : Nat) (positive : 0 < n) : ∃ c rest, natDigits n = c :: rest ∧ c ≠ '0' := by
  induction n using Nat.strongRecOn with
  | ind n ih =>
    by_cases small : n < 10
    · have apart : ∀ d < 10, 0 < d → d.digitChar ≠ '0' := by decide
      exact ⟨_, _, Nat.toDigits_of_lt_base small, apart n small positive⟩
    · obtain ⟨c, rest, front, nonzero⟩ := ih (n / 10) (by omega) (by omega)
      rw [natDigits] at front
      refine ⟨c, rest ++ [(n % 10).digitChar], ?_, nonzero⟩
      rw [natDigits, Nat.toDigits_of_base_le (by decide) (by omega), front, List.cons_append]

theorem length_natDigits_le_iff {n count : Nat} (some : 0 < count) :
    (natDigits n).length ≤ count ↔ n < Nat.pow 10 count :=
  Nat.length_toDigits_le_iff (by decide) some

private theorem digit_lt (c : Char) : (digitValue? c).getD 0 < 10 := by
  rw [digitValue?]
  dsimp only
  split
  · split
    next ascii =>
      simp only [Bool.and_eq_true, decide_eq_true_eq] at ascii
      rw [Option.getD_some]
      omega
    next => decide
  · cases wideDigits.find? _ with
    | none => exact (by decide : 0 < 10)
    | some run => exact Nat.mod_lt _ (by decide)

theorem digitsValue_lt {digits : List Char} {count : Nat} (short : digits.length ≤ count) :
    digitsValue digits < Nat.pow 10 count := by
  apply Nat.lt_of_lt_of_le _ (Nat.pow_le_pow_right (by decide) short)
  clear short
  induction digits using List.reverseRecOn with
  | nil => decide
  | append_singleton digits c ih =>
    have last := digit_lt c
    rw [digitsValue, List.foldl_append, List.length_append]
    change 10 * digitsValue digits + (digitValue? c).getD 0 < Nat.pow 10 digits.length * 10
    change digitsValue digits < Nat.pow 10 digits.length at ih
    omega

end TypeCatalog.Proofs
