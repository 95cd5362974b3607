import TypeCatalog.Proofs.SourcePaths

/-! A closing brace shields what stands before it. No lexeme but the brace itself has one, so text that is added after a
brace cannot change what is recognised, or missed, in front of it. -/

namespace TypeCatalog.Proofs
open Source Text

def extended {α : Type} (more : List Char) (taken : Taken α) : Taken α := { taken with rest := taken.rest ++ more }

/-- In a text with a closing brace, a recogniser takes the same whatever is added to the text, and leaves the brace. -/
def Local {α : Type} (scan : Scan α) : Prop :=
  ∀ text more, '\x7d' ∈ text → match scan text with
    | none => scan (text ++ more) = none
    | some taken => '\x7d' ∈ taken.rest ∧ scan (text ++ more) = some (extended more taken)

/-- As before, but the recogniser may take the brace. -/
def Steady {α : Type} (scan : Scan α) : Prop :=
  ∀ text more, '\x7d' ∈ text → scan (text ++ more) = (scan text).map (extended more)

section
variable {α β : Type} {scan : Scan α}

theorem Local.steady (scanned : Local scan) : Steady scan := by
  intro text more inside
  have result := scanned text more inside
  cases found : scan text with
  | none =>
    rw [found] at result
    exact result
  | some taken =>
    rw [found] at result
    exact result.2

theorem steady_mark (c : Char) : Steady (Scan.literal [c]) := by
  intro text more inside
  obtain ⟨d, rest, rfl⟩ := List.exists_cons_of_ne_nil (List.ne_nil_of_mem inside)
  by_cases same : (c == d) = true
  · simp [Scan.literal, List.isPrefixOf?, same, extended]
  · simp [Scan.literal, List.isPrefixOf?, same]

theorem Local.bind {next : α → Scan β} (first : Local scan) (second : ∀ value, Local (next value)) :
    Local (scan >>= next) := by
  intro text more inside
  have front := first text more inside
  change match scan.andThen next text with
    | none => scan.andThen next (text ++ more) = none
    | some taken => '\x7d' ∈ taken.rest ∧ scan.andThen next (text ++ more) = some (extended more taken)
  simp only [Scan.andThen]
  cases found : scan text with
  | none =>
    rw [found] at front
    rw [front]
  | some taken =>
    rw [found] at front
    obtain ⟨left, longer⟩ := front
    rw [longer]
    have back := second taken.value taken.rest more left
    dsimp only [extended]
    cases followed : next taken.value taken.rest with
    | none =>
      rw [followed] at back
      rw [back]
    | some last =>
      rw [followed] at back
      rw [back.2]
      exact ⟨back.1, rfl⟩

theorem local_pure (value : α) : Local (pure value : Scan α) := by
  intro text more inside
  exact ⟨inside, rfl⟩

theorem local_literal {chars : List Char} (free : '\x7d' ∉ chars) : Local (Scan.literal chars) := by
  intro text more inside
  simp only [Scan.literal]
  cases found : chars.isPrefixOf? text with
  | some rest =>
    obtain rfl := List.isPrefixOf?_eq_some_iff_append_eq.mp found
    have longer : chars.isPrefixOf? (chars ++ rest ++ more) = some (rest ++ more) := by
      rw [List.isPrefixOf?_eq_some_iff_append_eq, List.append_assoc]
    rw [longer]
    exact ⟨(List.mem_append.mp inside).resolve_left free, rfl⟩
  | none =>
    cases longer : chars.isPrefixOf? (text ++ more) with
    | none => rfl
    | some rest =>
      have front := List.isPrefixOf?_eq_some_iff_append_eq.mp longer
      rcases List.append_eq_append_iff.mp front.symm with ⟨tail, rfl, -⟩ | ⟨tail, rfl, -⟩
      · exact absurd (List.mem_append_left tail inside) free
      · rw [List.isPrefixOf?_eq_some_iff_append_eq.mpr rfl] at found
        cases found

theorem takeWhile_brace {accepts : Char → Bool} (refused : accepts '\x7d' = false) {text : List Char}
    (inside : '\x7d' ∈ text) (more : List Char) :
    (text ++ more).takeWhile accepts = text.takeWhile accepts ∧
      (text ++ more).dropWhile accepts = text.dropWhile accepts ++ more ∧ '\x7d' ∈ text.dropWhile accepts := by
  induction text with
  | nil => cases inside
  | cons c rest ih =>
    cases accepted : accepts c with
    | false => simpa [accepted] using inside
    | true =>
      have later : '\x7d' ∈ rest := by
        rcases List.mem_cons.mp inside with rfl | later
        · rw [refused] at accepted
          cases accepted
        · exact later
      simpa [accepted] using ih later

theorem local_allOf {accepts : Char → Bool} (refused : accepts '\x7d' = false) : Local (Scan.allOf accepts) := by
  intro text more inside
  obtain ⟨run, rest, kept⟩ := takeWhile_brace refused inside more
  refine ⟨kept, ?_⟩
  rw [Scan.allOf, run, rest]
  rfl

theorem local_someOf {accepts : Char → Bool} (refused : accepts '\x7d' = false) : Local (Scan.someOf accepts) := by
  intro text more inside
  obtain ⟨run, rest, kept⟩ := takeWhile_brace refused inside more
  simp only [Scan.someOf, run, rest]
  by_cases empty : (text.takeWhile accepts).isEmpty = true
  · simp [empty]
  · simpa [empty, extended] using kept

theorem local_optionally (inner : Local scan) : Local (Scan.optionally scan) := by
  intro text more inside
  have own := inner text more inside
  simp only [Scan.optionally]
  cases found : scan text with
  | none =>
    rw [found] at own
    rw [own]
    exact ⟨inside, rfl⟩
  | some taken =>
    rw [found] at own
    rw [own.2]
    exact ⟨own.1, rfl⟩

theorem local_either {other : Scan α} (first : Local scan) (second : Local other) : Local (Scan.either scan other) := by
  intro text more inside
  have own := first text more inside
  simp only [Scan.either]
  cases found : scan text with
  | none =>
    rw [found] at own
    rw [own]
    exact second text more inside
  | some taken =>
    rw [found] at own
    rw [own.2]
    exact ⟨own.1, rfl⟩

theorem local_wordEnd : Local Scan.wordEnd := by
  intro text more inside
  obtain ⟨c, rest, rfl⟩ := List.exists_cons_of_ne_nil (List.ne_nil_of_mem inside)
  simp only [Scan.wordEnd, List.cons_append, endsWord]
  by_cases word : isWord c = true
  · simp [word]
  · simpa [word, extended] using inside

end

/-- A hyphen in front of the brace has its next character in the text. -/
private theorem apart_longer {c : Char} {rest : List Char} (apart : ∀ next tail, c = '-' → rest = next :: tail → False)
    (inside : '\x7d' ∈ c :: rest) (more : List Char) : ∀ next tail, c = '-' → rest ++ more = next :: tail → False := by
  rintro next tail rfl same
  cases rest with
  | nil => exact absurd (List.mem_singleton.mp inside) (by decide)
  | cons d rest => exact apart d rest rfl rfl

theorem nameRest_brace {inner afterHyphen : Char → Bool} (refused : inner '\x7d' = false)
    (after : afterHyphen '\x7d' = false) (text more : List Char) (inside : '\x7d' ∈ text) :
    Form.nameRest inner afterHyphen (text ++ more) =
        ((Form.nameRest inner afterHyphen text).1, (Form.nameRest inner afterHyphen text).2 ++ more) ∧
      '\x7d' ∈ (Form.nameRest inner afterHyphen text).2 := by
  fun_induction Form.nameRest inner afterHyphen text with
  | case1 c rest accepted name tail found ih =>
    have later : '\x7d' ∈ rest := by
      rcases List.mem_cons.mp inside with same | member
      · exact absurd same (by decide)
      · rcases List.mem_cons.mp member with rfl | later
        · simp [after] at accepted
        · exact later
    obtain ⟨same, kept⟩ := ih later
    rw [found] at same kept
    rw [List.cons_append, List.cons_append, Form.nameRest, if_pos accepted, same]
    exact ⟨rfl, kept⟩
  | case2 c rest unaccepted =>
    rw [List.cons_append, List.cons_append, Form.nameRest, if_neg unaccepted]
    exact ⟨rfl, inside⟩
  | case3 c rest apart accepted name tail found ih =>
    have later : '\x7d' ∈ rest := by
      rcases List.mem_cons.mp inside with rfl | later
      · simp [refused] at accepted
      · exact later
    obtain ⟨same, kept⟩ := ih later
    rw [found] at same kept
    rw [List.cons_append, Form.nameRest.eq_2 _ _ _ _ (apart_longer apart inside more), if_pos accepted, same]
    exact ⟨rfl, kept⟩
  | case4 c rest apart unaccepted =>
    rw [List.cons_append, Form.nameRest.eq_2 _ _ _ _ (apart_longer apart inside more), if_neg unaccepted]
    exact ⟨rfl, inside⟩
  | case5 => cases inside

theorem local_name {first inner afterHyphen : Char → Bool} (start : first '\x7d' = false) (refused : inner '\x7d' = false)
    (after : afterHyphen '\x7d' = false) : Local (Form.name first inner afterHyphen) := by
  intro text more inside
  cases text with
  | nil => cases inside
  | cons c rest =>
    rw [List.cons_append, Form.name, Form.name]
    by_cases accepted : first c = true
    · have later : '\x7d' ∈ rest := by
        rcases List.mem_cons.mp inside with rfl | later
        · simp [start] at accepted
        · exact later
      obtain ⟨same, kept⟩ := nameRest_brace refused after rest more later
      simp only [accepted, if_true, same]
      exact ⟨kept, rfl⟩
    · simp [accepted]

theorem local_typeName : Local Form.typeName := local_name rfl rfl rfl

theorem local_itemName : Local Form.itemName := local_name rfl rfl rfl

theorem local_blanks : Local Scan.blanks := local_allOf (by decide)

theorem local_someBlanks : Local Scan.someBlanks := local_someOf (by decide)

theorem local_digits : Local Scan.digits := local_someOf (by decide)

theorem local_keyword {word : String} (free : '\x7d' ∉ word.toList) : Local (Form.keyword word) :=
  (local_literal free).bind fun _ => local_wordEnd

theorem local_header : Local Form.header := by
  refine local_typeName.bind fun _ => ?_
  refine local_blanks.bind fun _ => ?_
  exact (local_literal (by decide)).bind fun _ => local_pure _

theorem local_enclosed {opening closing : Char} (first : '\x7d' ≠ opening) (second : '\x7d' ≠ closing) :
    Local (Form.enclosed opening closing) := by
  refine (local_literal (by simpa using first)).bind fun _ => ?_
  refine local_blanks.bind fun _ => ?_
  refine local_digits.bind fun _ => ?_
  refine local_blanks.bind fun _ => ?_
  exact (local_literal (by simpa using second)).bind fun _ => local_pure _

theorem local_itemNumber : Local Form.itemNumber := local_enclosed (by decide) (by decide)

theorem local_contextTag : Local Form.contextTag := local_enclosed (by decide) (by decide)

theorem local_application : Local Form.application := by
  refine (local_literal (by decide)).bind fun _ => ?_
  refine local_blanks.bind fun _ => ?_
  refine (local_literal (by decide)).bind fun _ => ?_
  refine local_someBlanks.bind fun _ => ?_
  refine local_digits.bind fun _ => ?_
  refine local_blanks.bind fun _ => ?_
  exact (local_literal (by decide)).bind fun _ => local_pure _

private theorem local_seriesCount : Local Form.seriesCount := by
  refine (local_literal (by decide)).bind fun _ => ?_
  refine local_blanks.bind fun _ => ?_
  refine local_itemNumber.bind fun _ => ?_
  exact local_blanks.bind fun _ => local_pure _

theorem local_series : Local Form.series := by
  refine (local_literal (by decide)).bind fun _ => ?_
  refine local_blanks.bind fun _ => ?_
  refine (local_optionally local_seriesCount).bind fun _ => ?_
  exact (local_keyword (by decide)).bind fun _ => local_pure _

theorem local_enumerated : Local Form.enumerated := local_keyword (by decide)

theorem local_optional : Local Form.optional := local_keyword (by decide)

private theorem local_words {first : List Char} {second : String} (free : '\x7d' ∉ first) (clear : '\x7d' ∉ second.toList) :
    Local (do Scan.literal first; let _ ← Scan.someBlanks; Form.keyword second : Scan Unit) := by
  refine (local_literal free).bind fun _ => ?_
  exact local_someBlanks.bind fun _ => local_keyword clear

theorem local_bitString : Local Form.bitString := local_words (by decide) (by decide)

theorem local_octetString : Local Form.octetString := local_words (by decide) (by decide)

theorem local_anyType : Local Form.anyType := local_literal (by decide)

theorem local_size : Local Form.size := by
  refine (local_optionally (local_literal (by decide))).bind fun _ => ?_
  refine local_blanks.bind fun _ => ?_
  exact (local_keyword (by decide)).bind fun _ => local_pure _

private theorem local_word {chars : List Char} {α : Type} (free : '\x7d' ∉ chars) (value : α) :
    Local (do Scan.literal chars; return value : Scan α) :=
  (local_literal free).bind fun _ => local_pure value

private theorem local_signed : Local Form.signed := by
  have fraction : Local Form.fraction :=
    (local_literal (by decide)).bind fun _ => local_digits.bind fun _ => local_pure _
  refine (local_optionally (local_either (local_word (by decide) _) (local_word (by decide) _))).bind fun _ => ?_
  refine local_digits.bind fun _ => ?_
  exact (local_optionally fraction).bind fun _ => local_pure _

private theorem local_bound : Local Form.bound :=
  local_either (local_word (by decide) _) (local_either (local_word (by decide) _) local_signed)

theorem local_constraint : Local Form.constraint := by
  have upper : Local Form.upperBound := by
    refine (local_literal (by decide)).bind fun _ => ?_
    refine local_blanks.bind fun _ => ?_
    refine local_bound.bind fun _ => ?_
    exact local_blanks.bind fun _ => local_pure _
  refine (local_literal (by decide)).bind fun _ => ?_
  refine local_blanks.bind fun _ => ?_
  refine local_bound.bind fun _ => ?_
  refine local_blanks.bind fun _ => ?_
  refine (local_optionally upper).bind fun _ => ?_
  exact (local_literal (by decide)).bind fun _ => local_pure _

/-- A text goes on after a brace that is not in the comments at its front. -/
def Shielded (text : List Char) : Prop := '\x7d' ∈ (Run.outside text).rest

theorem outside_subset (text : List Char) : (Run.outside text).rest ⊆ text := by
  rcases (outside_splits text).2 with ⟨gap, -, -, whole⟩ | ⟨-, empty, -⟩
  · intro c member
    rw [whole]
    exact List.mem_append_right gap member
  · rw [empty]
    exact List.nil_subset _

private theorem Settled.append {text : List Char} (settled : Settled text) (inside : '\x7d' ∈ text) (more : List Char) :
    Settled (text ++ more) := by
  cases text with
  | nil => cases inside
  | cons c rest =>
    refine ⟨settled.blank, ?_⟩
    intro starts
    apply settled.comment
    cases rest with
    | nil =>
      obtain rfl := List.mem_singleton.mp inside
      exact absurd starts (by simp)
    | cons d rest => simpa using starts

theorem outside_append {text : List Char} (shielded : Shielded text) (more : List Char) :
    Run.outside (text ++ more) = { Run.outside text with rest := (Run.outside text).rest ++ more } := by
  obtain ⟨settled, ⟨gap, skipped, size, whole⟩ | ⟨-, empty, -⟩⟩ := outside_splits text
  · have run := outside_gap skipped (settled.append shielded more)
    rw [← List.append_assoc, ← whole] at run
    rw [run, size]
  · rw [Shielded, empty] at shielded
    cases shielded

def moved (before : Nat) (more : List Char) (cursor : Cursor) : Cursor := ⟨cursor.offset + before, cursor.rest ++ more⟩

def later {α : Type} (before : Nat) (token : Token α) : Token α := { token with offset := token.offset + before }

def Safe (more : List Char) (cursor : Cursor) : Prop := more = [] ∨ Shielded cursor.rest

section
variable {α : Type} {scan : Scan α} {before : Nat} {more : List Char} {cursor next : Cursor}

theorem outside_safe (safe : Safe more cursor) :
    Run.outside (cursor.rest ++ more) =
      { Run.outside cursor.rest with rest := (Run.outside cursor.rest).rest ++ more } := by
  rcases safe with rfl | shielded
  · simp
  · exact outside_append shielded more

theorem skip_moved (safe : Safe more cursor) :
    (moved before more cursor).skip = (cursor.skip.1, moved before more cursor.skip.2) := by
  have filled : ((Run.outside cursor.rest).rest ++ more).isEmpty = (Run.outside cursor.rest).rest.isEmpty := by
    rcases safe with rfl | shielded
    · rw [List.append_nil]
    · obtain ⟨c, rest, same⟩ := List.exists_cons_of_ne_nil (List.ne_nil_of_mem shielded)
      rw [same]
      rfl
  simp only [Cursor.skip, moved, outside_safe safe, filled, Cursor.past]
  rw [Nat.add_right_comm]
  rfl

theorem safe_of_skip (safe : Safe more cursor.skip.2) : Safe more cursor := by
  refine safe.imp_right ?_
  intro shielded
  exact outside_subset _ shielded

theorem take_moved (steady : Steady scan) (safe : Safe more cursor) :
    (moved before more cursor).take? scan =
      (cursor.take? scan).map fun (token, next) => (later before token, moved before more next) := by
  have same : scan ((Run.outside cursor.rest).rest ++ more) = (scan (Run.outside cursor.rest).rest).map (extended more) := by
    rcases safe with rfl | shielded
    · rw [List.append_nil]
      cases scan (Run.outside cursor.rest).rest with
      | none => rfl
      | some taken => simp [extended]
    · exact steady _ more shielded
  simp only [Cursor.take?, moved, outside_safe safe, same]
  cases scan (Run.outside cursor.rest).rest with
  | none => rfl
  | some taken =>
    simp only [Option.map_some, extended, later, Nat.add_right_comm _ before]
    rfl

theorem safe_of_step {placed : Placed} (step : Step cursor placed next) (safe : Safe more next) : Safe more cursor := by
  refine safe.imp_right ?_
  intro shielded
  obtain ⟨size, comments, text, run, -⟩ := step.run
  rw [Shielded, run]
  exact List.mem_append_right text (outside_subset _ shielded)

end

end TypeCatalog.Proofs
