import TypeCatalog.Command.World
import TypeCatalog.Proofs.Recognisers

/-! Lines on a stream that is no terminal. They are without the control sequences that start somewhere in them, read from
the front, and otherwise as they were. -/

namespace TypeCatalog.Proofs
open Command

/-- A control sequence of a terminal: an introducer, parameters, intermediate characters and a final one. -/
inductive IsControl : List Char → Prop where
  | made {parameters between : List Char} {final : Char} (parameter : ∀ c ∈ parameters, isParameter c = true)
      (intermediate : ∀ c ∈ between, isIntermediate c = true) (ending : isFinal final = true) :
      IsControl ('\x1b' :: '[' :: (parameters ++ (between ++ [final])))

def Starts (text rest : List Char) : Prop := ∃ sequence, IsControl sequence ∧ text = sequence ++ rest

/-- A text, and what is left of it without its control sequences. -/
inductive Cleared : List Char → List Char → Prop where
  | nil : Cleared [] []
  | keep {c : Char} {text left : List Char} (plain : ∀ rest, ¬ Starts (c :: text) rest) (others : Cleared text left) :
      Cleared (c :: text) (c :: left)
  | drop {text rest left : List Char} (control : Starts text rest) (others : Cleared rest left) : Cleared text left

section
variable {text rest left : List Char} {c : Char}

/-- A character after the parameters of a control sequence is none of them, nor is the final one intermediate. -/
private theorem classes_apart : (isIntermediate c = true → isParameter c = false) ∧
    (isFinal c = true → isParameter c = false ∧ isIntermediate c = false) := by
  have values : ' '.toNat = 32 ∧ '/'.toNat = 47 ∧ '0'.toNat = 48 ∧ '?'.toNat = 63 ∧ '@'.toNat = 64 ∧ '~'.toNat = 126 := by
    decide
  have below (a b : Char) : (decide (a ≤ b)) = decide (a.toNat ≤ b.toNat) := rfl
  simp only [isIntermediate, isParameter, isFinal, below, Bool.and_eq_true, decide_eq_true_eq, Bool.and_eq_false_iff,
    decide_eq_false_iff_not]
  omega

private theorem dropWhile_front {accepts : Char → Bool} {front : List Char} (members : ∀ c ∈ front, accepts c = true)
    (stops : opens accepts rest = false) : (front ++ rest).dropWhile accepts = rest := by
  rw [List.dropWhile_append_of_pos members, (stops_at stops).2]

private theorem front_dropWhile (accepts : Char → Bool) (text : List Char) :
    ∃ front, text = front ++ text.dropWhile accepts ∧ ∀ c ∈ front, accepts c = true :=
  ⟨text.takeWhile accepts, List.takeWhile_append_dropWhile.symm, fun _ member => List.mem_takeWhile_imp member⟩

theorem afterControl_iff : afterControl? text = some rest ↔ Starts text rest := by
  constructor
  · intro found
    rw [afterControl?.eq_def] at found
    split at found
    next body =>
      obtain ⟨parameters, first, parameter⟩ := front_dropWhile isParameter body
      obtain ⟨between, second, intermediate⟩ := front_dropWhile isIntermediate (body.dropWhile isParameter)
      split at found
      next final after ended =>
        split at found
        next last =>
          cases found
          refine ⟨_, .made parameter intermediate last, ?_⟩
          rw [first, second, ended]
          simp
        next => cases found
      next => cases found
    next => cases found
  · rintro ⟨_, @⟨parameters, between, final, parameter, intermediate, ending⟩, rfl⟩
    have last := classes_apart.2 ending
    have first : (parameters ++ (between ++ (final :: rest))).dropWhile isParameter = between ++ (final :: rest) := by
      apply dropWhile_front parameter
      cases between with
      | nil => exact last.1
      | cons c between => exact classes_apart.1 (intermediate c List.mem_cons_self)
    have second : (between ++ (final :: rest)).dropWhile isIntermediate = final :: rest :=
      dropWhile_front intermediate last.2
    simp only [List.cons_append, List.append_assoc, List.nil_append, afterControl?, first, second]
    rw [if_pos ending]

theorem withoutControls_cleared {steps : Nat} (enough : text.length ≤ steps) :
    Cleared text (withoutControls steps text) := by
  induction steps generalizing text with
  | zero =>
    rw [List.length_eq_zero_iff.mp (Nat.le_zero.mp enough)]
    exact .nil
  | succ steps ih =>
    cases text with
    | nil => exact .nil
    | cons c text =>
      rw [withoutControls]
      cases found : afterControl? (c :: text) with
      | some rest =>
        have starts := afterControl_iff.mp found
        obtain ⟨_, ⟨-, -, -⟩, split⟩ := starts
        have shorter := congrArg List.length split
        simp only [List.length_cons, List.length_append] at shorter enough
        exact .drop (afterControl_iff.mp found) (ih (by omega))
      | none =>
        refine .keep (fun rest starts => ?_) (ih (Nat.le_of_succ_le_succ enough))
        rw [afterControl_iff.mpr starts] at found
        cases found

theorem Cleared.plain (cleared : Cleared text left) (plain : '\x1b' ∉ text) : left = text := by
  induction cleared with
  | nil => rfl
  | keep _ _ ih => rw [ih (List.not_mem_of_not_mem_cons plain)]
  | drop control _ _ =>
    obtain ⟨_, ⟨-, -, -⟩, rfl⟩ := control
    exact absurd List.mem_cons_self plain

/-- A line as a stream shows it: whole on a terminal, and else without its control sequences. -/
def ShownAs (terminal : Bool) (line shown : String) : Prop :=
  if terminal then shown = line else Cleared line.toList shown.toList

theorem echoed_shown (terminal : Bool) (line : String) :
    ∃ shown, echoed terminal line = shown ++ "\n" ∧ ShownAs terminal line shown := by
  cases terminal with
  | true => exact ⟨line, rfl, rfl⟩
  | false =>
    refine ⟨_, rfl, ?_⟩
    change Cleared line.toList (String.ofList (withoutControls line.length line.toList)).toList
    rw [String.toList_ofList]
    exact withoutControls_cleared String.length_toList.le

theorem ShownAs.plain {terminal : Bool} {line shown : String} (shows : ShownAs terminal line shown)
    (plain : '\x1b' ∉ line.toList) : shown = line := by
  cases terminal with
  | true => exact shows
  | false => exact String.toList_inj.mp (Cleared.plain shows plain)

end

end TypeCatalog.Proofs
