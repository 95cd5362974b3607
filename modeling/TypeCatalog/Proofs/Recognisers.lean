import TypeCatalog.Text.Scan
import Mathlib.Data.List.Basic
import Mathlib.Data.List.TakeWhile

/-! Recognisers cut a lexeme off the front of a text. `Reads` is what a recogniser promises of every lexeme it takes,
`Takes` that it takes a given one. Both are closed under sequencing, so a form of the notation gets its laws part by
part, from those of characters, white space and digits. -/

namespace TypeCatalog.Proofs
open Text

/-- Whether the first character of a text is in a class. -/
def opens (accepts : Char → Bool) (text : List Char) : Bool := text.head?.any accepts

@[simp] theorem opens_cons (accepts : Char → Bool) (c : Char) (rest : List Char) :
    opens accepts (c :: rest) = accepts c := rfl

private def blankPoints : List Nat :=
  List.range' 9 5 ++ List.range' 28 5 ++ [0x85, 0xA0, 0x1680] ++ List.range' 0x2000 11 ++
    [0x2028, 0x2029, 0x202F, 0x205F, 0x3000]

private theorem blank_point {c : Char} (blank : isBlank c = true) : c.toNat ∈ blankPoints := by
  simp only [isBlank] at blank
  split at blank
  · simp only [Bool.or_eq_true, Bool.and_eq_true, decide_eq_true_eq] at blank
    simp only [blankPoints, List.mem_append, List.mem_range'_1]
    omega
  · simp only [inRanges, wideBlanks, List.any_cons, List.any_nil, Bool.or_false, Bool.or_eq_true, Bool.and_eq_true,
      decide_eq_true_eq] at blank
    simp only [blankPoints, List.mem_append, List.mem_range'_1, List.mem_cons, List.not_mem_nil, or_false]
    omega

/-- A class that has no white space among its members, found out by going through all white space. -/
private theorem apart_of_points {accepts : Char → Bool}
    (none : ∀ point ∈ blankPoints, accepts (Char.ofNat point) = false) {c : Char} (blank : isBlank c = true) :
    accepts c = false := by
  have apart := none c.toNat (blank_point blank)
  rwa [Char.ofNat_toNat] at apart

theorem blank_not_word {c : Char} (blank : isBlank c = true) : isWord c = false :=
  apart_of_points (by decide +kernel) blank

theorem blank_not_digit {c : Char} (blank : isBlank c = true) : isDigit c = false :=
  apart_of_points (by decide +kernel) blank

theorem blank_ne_hyphen {c : Char} (blank : isBlank c = true) : c ≠ '-' := by
  rintro rfl
  exact absurd blank (by decide)

theorem digit_not_blank {c : Char} (digit : isDigit c = true) : isBlank c = false := by
  cases blank : isBlank c with
  | false => rfl
  | true => simp [blank_not_digit blank] at digit

theorem alphanum_point {c : Char} (letter : c.isAlphanum = true) :
    (65 ≤ c.toNat ∧ c.toNat ≤ 90) ∨ (97 ≤ c.toNat ∧ c.toNat ≤ 122) ∨ (48 ≤ c.toNat ∧ c.toNat ≤ 57) := by
  have between {low high : Nat} (member : (decide (low ≤ c.toNat) && decide (c.toNat ≤ high)) = true) :
      low ≤ c.toNat ∧ c.toNat ≤ high := by
    simpa using member
  rcases Bool.or_eq_true_iff.mp letter with alpha | digit
  · rcases Bool.or_eq_true_iff.mp alpha with upper | lower
    · exact .inl (of_decide_eq_true upper)
    · exact .inr (.inl (between lower))
  · exact .inr (.inr (between digit))

theorem word_of_alphanum {c : Char} (letter : c.isAlphanum = true) : isWord c = true := by
  have small : c.toNat < 128 := by
    have point := alphanum_point letter
    omega
  simp [isWord, small, letter]

theorem blank_not_alphanum {c : Char} (blank : isBlank c = true) : c.isAlphanum = false := by
  cases letter : c.isAlphanum with
  | false => rfl
  | true =>
    have word := blank_not_word blank
    rw [word_of_alphanum letter] at word
    cases word

/-- Every lexeme that a recogniser takes is the front of the text, and it, its value and the rest are as promised. -/
def Reads {α : Type} (scan : Scan α) (promised : α → List Char → List Char → Prop) : Prop :=
  ∀ text taken, scan text = some taken →
    text = taken.lexeme ++ taken.rest ∧ promised taken.value taken.lexeme taken.rest

/-- A recogniser takes the given lexeme in front of the given rest. -/
def Takes {α : Type} (scan : Scan α) (value : α) (lexeme rest : List Char) : Prop :=
  scan (lexeme ++ rest) = some ⟨value, lexeme, rest⟩

section
variable {α β : Type}

theorem bind_eq_some {scan : Scan α} {next : α → Scan β} {text : List Char} {taken : Taken β} :
    (scan >>= next) text = some taken ↔
      ∃ first second, scan text = some first ∧ next first.value first.rest = some second ∧
        taken = ⟨second.value, first.lexeme ++ second.lexeme, second.rest⟩ := by
  change scan.andThen next text = some taken ↔ _
  simp only [Scan.andThen]
  constructor
  · intro accepted
    split at accepted
    · cases accepted
    next first found =>
      split at accepted
      · cases accepted
      next second followed =>
        cases accepted
        exact ⟨first, second, found, followed, rfl⟩
  · rintro ⟨first, second, found, followed, rfl⟩
    simp only [found, followed]

theorem Reads.bind {scan : Scan α} {next : α → Scan β} {middle : α → List Char → List Char → Prop}
    {promised : β → List Char → List Char → Prop} (first : Reads scan middle)
    (second : ∀ value lexeme, Reads (next value) fun result tail rest =>
      middle value lexeme (tail ++ rest) → promised result (lexeme ++ tail) rest) :
    Reads (scan >>= next) promised := by
  intro text taken accepted
  obtain ⟨front, back, found, followed, rfl⟩ := bind_eq_some.mp accepted
  obtain ⟨split, kept⟩ := first text front found
  obtain ⟨rest, result⟩ := second front.value front.lexeme front.rest back followed
  refine ⟨?_, result (rest ▸ kept)⟩
  rw [split, rest, List.append_assoc]

theorem Reads.pure {promised : α → List Char → List Char → Prop} (value : α)
    (holds : ∀ rest, promised value [] rest) : Reads (Pure.pure value : Scan α) promised := by
  intro text taken accepted
  cases accepted
  exact ⟨rfl, holds text⟩

theorem Reads.weaken {scan : Scan α} {promised weaker : α → List Char → List Char → Prop}
    (reads : Reads scan promised) (implies : ∀ value lexeme rest, promised value lexeme rest → weaker value lexeme rest) :
    Reads scan weaker := by
  intro text taken accepted
  obtain ⟨split, holds⟩ := reads text taken accepted
  exact ⟨split, implies _ _ _ holds⟩

theorem reads_literal (chars : List Char) :
    Reads (Scan.literal chars) fun _ lexeme _ => lexeme = chars := by
  intro text taken accepted
  simp only [Scan.literal] at accepted
  split at accepted
  · cases accepted
  next rest found =>
    cases accepted
    exact ⟨(List.isPrefixOf?_eq_some_iff_append_eq.mp found).symm, rfl⟩

theorem opens_dropWhile (accepts : Char → Bool) (text : List Char) :
    opens accepts (text.dropWhile accepts) = false := by
  induction text with
  | nil => rfl
  | cons c rest ih =>
    rw [List.dropWhile_cons]
    split
    · exact ih
    next refused => simpa using refused

theorem reads_allOf (accepts : Char → Bool) :
    Reads (Scan.allOf accepts) fun run lexeme rest =>
      lexeme = run ∧ (∀ c ∈ run, accepts c = true) ∧ opens accepts rest = false := by
  intro text taken accepted
  cases accepted
  exact ⟨List.takeWhile_append_dropWhile.symm, rfl, fun c member => List.mem_takeWhile_imp member,
    opens_dropWhile accepts text⟩

theorem reads_someOf (accepts : Char → Bool) :
    Reads (Scan.someOf accepts) fun run lexeme rest =>
      lexeme = run ∧ run ≠ [] ∧ (∀ c ∈ run, accepts c = true) ∧ opens accepts rest = false := by
  intro text taken accepted
  simp only [Scan.someOf] at accepted
  split at accepted
  · cases accepted
  next some =>
    cases accepted
    exact ⟨List.takeWhile_append_dropWhile.symm, rfl, by simpa using some,
      fun c member => List.mem_takeWhile_imp member, opens_dropWhile accepts text⟩

theorem reads_optionally {scan : Scan α} {promised : α → List Char → List Char → Prop} (reads : Reads scan promised) :
    Reads (Scan.optionally scan) fun value lexeme rest =>
      (value = none ∧ lexeme = [] ∧ scan rest = none) ∨
        ∃ inner, value = some inner ∧ promised inner lexeme rest := by
  intro text taken accepted
  simp only [Scan.optionally] at accepted
  split at accepted
  next missing =>
    cases accepted
    exact ⟨rfl, .inl ⟨rfl, rfl, missing⟩⟩
  next inner found =>
    cases accepted
    obtain ⟨split, holds⟩ := reads text inner found
    exact ⟨split, .inr ⟨inner.value, rfl, holds⟩⟩

theorem reads_either {first second : Scan α} {promised : α → List Char → List Char → Prop}
    (left : Reads first promised) (right : Reads second promised) : Reads (Scan.either first second) promised := by
  intro text taken accepted
  simp only [Scan.either] at accepted
  split at accepted
  · exact right text taken accepted
  next found =>
    cases accepted
    exact left text taken found

theorem reads_wordEnd : Reads Scan.wordEnd fun _ lexeme rest => lexeme = [] ∧ endsWord rest = true := by
  intro text taken accepted
  simp only [Scan.wordEnd] at accepted
  split at accepted
  next ends =>
    cases accepted
    exact ⟨rfl, rfl, ends⟩
  · cases accepted

theorem Takes.bind {scan : Scan α} {next : α → Scan β} {value : α} {result : β} {lexeme tail rest : List Char}
    (first : Takes scan value lexeme (tail ++ rest)) (second : Takes (next value) result tail rest) :
    Takes (scan >>= next) result (lexeme ++ tail) rest := by
  have found : scan (lexeme ++ tail ++ rest) = some ⟨value, lexeme, tail ++ rest⟩ := by
    rw [List.append_assoc]
    exact first
  exact bind_eq_some.mpr ⟨_, _, found, second, rfl⟩

theorem Takes.pure (value : α) (rest : List Char) : Takes (Pure.pure value : Scan α) value [] rest := rfl

theorem takes_literal (chars rest : List Char) : Takes (Scan.literal chars) () chars rest := by
  have found : chars.isPrefixOf? (chars ++ rest) = some rest := List.isPrefixOf?_eq_some_iff_append_eq.mpr rfl
  simp only [Takes, Scan.literal, found]

theorem stops_at {accepts : Char → Bool} {rest : List Char} (stops : opens accepts rest = false) :
    rest.takeWhile accepts = [] ∧ rest.dropWhile accepts = rest := by
  cases rest with
  | nil => exact ⟨rfl, rfl⟩
  | cons c rest =>
    rw [opens_cons] at stops
    exact ⟨by simp [stops], by simp [stops]⟩

theorem takes_allOf {accepts : Char → Bool} {run rest : List Char} (members : ∀ c ∈ run, accepts c = true)
    (stops : opens accepts rest = false) : Takes (Scan.allOf accepts) run run rest := by
  obtain ⟨none, all⟩ := stops_at stops
  simp only [Takes, Scan.allOf, List.takeWhile_append_of_pos members, List.dropWhile_append_of_pos members, none, all,
    List.append_nil]

theorem takes_someOf {accepts : Char → Bool} {run rest : List Char} (some : run ≠ [])
    (members : ∀ c ∈ run, accepts c = true) (stops : opens accepts rest = false) :
    Takes (Scan.someOf accepts) run run rest := by
  obtain ⟨none, all⟩ := stops_at stops
  have filled : run.isEmpty = false := by simpa using some
  simp only [Takes, Scan.someOf, List.takeWhile_append_of_pos members, List.dropWhile_append_of_pos members, none, all,
    List.append_nil, filled, Bool.false_eq_true, if_false]

theorem takes_optionally {scan : Scan α} {value : α} {lexeme rest : List Char} (takes : Takes scan value lexeme rest) :
    Takes (Scan.optionally scan) (some value) lexeme rest := by
  rw [Takes] at takes
  simp only [Takes, Scan.optionally, takes]

theorem takes_nothing {scan : Scan α} {rest : List Char} (missing : scan rest = none) :
    Takes (Scan.optionally scan) none [] rest := by
  simp only [Takes, Scan.optionally, List.nil_append, missing]

theorem takes_first {first second : Scan α} {value : α} {lexeme rest : List Char}
    (takes : Takes first value lexeme rest) : Takes (Scan.either first second) value lexeme rest := by
  rw [Takes] at takes
  simp only [Takes, Scan.either, takes]

theorem takes_second {first second : Scan α} {value : α} {lexeme rest : List Char}
    (missing : first (lexeme ++ rest) = none) (takes : Takes second value lexeme rest) :
    Takes (Scan.either first second) value lexeme rest := by
  simp only [Takes, Scan.either, missing]
  exact takes

theorem takes_wordEnd {rest : List Char} (ends : endsWord rest = true) : Takes Scan.wordEnd () [] rest := by
  simp only [Takes, Scan.wordEnd, List.nil_append, ends, if_true]

theorem literal_missing {c : Char} {text : List Char} (other : opens (· == c) text = false) (chars : List Char) :
    Scan.literal (c :: chars) text = none := by
  cases text with
  | nil => rfl
  | cons d text =>
    have different : (c == d) = false := by
      rw [BEq.comm]
      exact other
    simp [Scan.literal, List.isPrefixOf?, different]

theorem someOf_missing {accepts : Char → Bool} {text : List Char} (other : opens accepts text = false) :
    Scan.someOf accepts text = none := by
  simp [Scan.someOf, (stops_at other).1]

theorem bind_missing {scan : Scan α} {next : α → Scan β} {text : List Char} (missing : scan text = none) :
    (scan >>= next) text = none := by
  change scan.andThen next text = none
  simp only [Scan.andThen, missing]

theorem Takes.bind_missing {scan : Scan α} {next : α → Scan β} {value : α} {lexeme rest : List Char}
    (takes : Takes scan value lexeme rest) (missing : next value rest = none) :
    (scan >>= next) (lexeme ++ rest) = none := by
  change scan.andThen next (lexeme ++ rest) = none
  rw [Takes] at takes
  simp only [Scan.andThen, takes, missing]

end

end TypeCatalog.Proofs
