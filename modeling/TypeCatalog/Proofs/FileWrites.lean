import TypeCatalog.Document
import TypeCatalog.Proofs.Attempts
import TypeCatalog.Proofs.Lookups

/-! What a tree of files shows after a file was written. The file has the new content, and all other files have theirs. -/

namespace TypeCatalog.Proofs
open FileTree

def contentOf : FileTree → Option ByteArray
  | .file content => some content
  | .directory _ => none

def seen (tree : FileTree) (way : List String) : Option (Option ByteArray) := (tree.locate way).map contentOf

section
variable {tree before after : FileTree} {entries : List (String × FileTree)} {way names target : List String} {name : String}
  {node : FileTree} {content : ByteArray}

theorem lookup_replaceEntry (other : String) :
    (replaceEntry name node entries).lookup other = if other == name then some node else entries.lookup other :=
  lookup_placed (replaceEntry name node) rfl (fun _ _ _ => rfl) entries other

theorem seen_cons : seen (.directory entries) (name :: way) = (entries.lookup name).bind (seen · way) := by
  rw [seen, locate]
  cases entries.lookup name <;> rfl

theorem seen_directory (reached : seen tree way = some none) : ∃ entries, tree.locate way = some (.directory entries) := by
  rw [seen, Option.map_eq_some_iff] at reached
  obtain ⟨node, located, same⟩ := reached
  cases node with
  | file content => cases same
  | directory entries => exact ⟨entries, located⟩

theorem seen_file (part : String) (rest : List String) : seen (.file content) (part :: rest) = none := rfl

private theorem seen_put_here (free : seen (.directory entries) [name] ≠ some none) (other : List String) :
    seen (put name (.file content) [] (.directory entries)) other =
      if other = [name] then some (some content) else seen (.directory entries) other := by
  cases other with
  | nil => rfl
  | cons first others =>
    rw [put, seen_cons, seen_cons, lookup_replaceEntry]
    by_cases same : first = name
    · subst same
      rw [if_pos (beq_self_eq_true first), Option.bind_some]
      cases others with
      | nil =>
        rw [if_pos rfl]
        rfl
      | cons second others =>
        rw [if_neg (by simp), seen_file]
        rw [seen_cons] at free
        match entries.lookup first, free with
        | none, _ => rfl
        | some (.file old), _ => rfl
        | some (.directory inner), free => exact absurd rfl free
    · rw [if_neg (by simpa using same), if_neg (by simp [same])]

/-- A file that is put into a directory, where no directory is, is all that changes. -/
theorem seen_put (reached : seen tree way = some none) (free : seen tree (way ++ [name]) ≠ some none) (other : List String) :
    seen (put name (.file content) way tree) other =
      if other = way ++ [name] then some (some content) else seen tree other := by
  induction way generalizing tree other with
  | nil =>
    obtain ⟨entries, same⟩ := seen_directory reached
    cases same
    exact seen_put_here free other
  | cons part rest ih =>
    cases tree with
    | file old => cases reached
    | directory entries =>
      rw [seen_cons] at reached
      rw [List.cons_append, seen_cons] at free
      obtain ⟨child, known, inner⟩ := Option.bind_eq_some_iff.mp reached
      rw [known, Option.bind_some] at free
      rw [put, known, Option.getD_some]
      cases other with
      | nil => rfl
      | cons first others =>
        rw [seen_cons, seen_cons, lookup_replaceEntry, List.cons_append]
        by_cases same : first = part
        · subst same
          rw [if_pos (beq_self_eq_true first), Option.bind_some, ih inner free, known, Option.bind_some]
          simp only [List.cons.injEq, true_and]
        · rw [if_neg (by simpa using same), if_neg (by simp [same])]

theorem step_ok {next : List String} : tree.step way name = .ok next ↔
    next = turn way name ∧ seen tree way = some none ∧ (seen tree next).isSome = true ∧
      ¬ (name != ".." && Path.maxName < name.utf8ByteSize) = true := by
  have there (way : List String) : (tree.locate way).isSome = (seen tree way).isSome := by rw [seen, Option.isSome_map]
  rw [step]
  split
  next entries located =>
    have directory : seen tree way = some none := by rw [seen, located]; rfl
    rw [there]
    split
    next long => simp [long]
    next short =>
      split
      next known =>
        rw [Except.ok.injEq]
        constructor
        · rintro rfl
          exact ⟨rfl, directory, known, short⟩
        · rintro ⟨rfl, -⟩
          rfl
      next unknown =>
        refine iff_of_false nofun ?_
        rintro ⟨rfl, -, known, -⟩
        exact unknown known
  next other =>
    refine iff_of_false nofun ?_
    rintro ⟨-, directory, -⟩
    obtain ⟨entries, located⟩ := seen_directory directory
    exact other entries located

/-- A way that can be gone leads to its straight names. -/
theorem walk_straight {last : List String} (walked : names.foldlM tree.step way = .ok last) : last = names.foldl turn way := by
  induction names generalizing way with
  | nil =>
    cases walked
    rfl
  | cons name rest ih =>
    rw [List.foldlM_cons] at walked
    obtain ⟨next, first, others⟩ := of_bind_ok walked
    cases (step_ok.mp first).1
    exact ih others

/-- Two trees show the same but for one way, at the end of which there is no directory before and a file after. -/
structure Rewritten (before : FileTree) (target : List String) (content : ByteArray) (after : FileTree) : Prop where
  free : seen before target ≠ some none
  changed : seen after target = some (some content)
  kept : ∀ way, way ≠ target → seen after way = seen before way

section
variable {last : List String} (rewritten : Rewritten before target content after)
include rewritten

theorem Rewritten.directory : seen after way = some none ↔ seen before way = some none := by
  by_cases same : way = target
  · subst same
    rw [rewritten.changed]
    exact iff_of_false nofun rewritten.free
  · rw [rewritten.kept way same]

/-- What could be gone before can be gone after. -/
theorem Rewritten.walk (walked : names.foldlM before.step way = .ok last) : names.foldlM after.step way = .ok last := by
  induction names generalizing way with
  | nil => exact walked
  | cons name rest ih =>
    rw [List.foldlM_cons] at walked ⊢
    obtain ⟨next, first, others⟩ := of_bind_ok walked
    obtain ⟨turned, directory, known, short⟩ := step_ok.mp first
    have known' : (seen after next).isSome = true := by
      by_cases same : next = target
      · rw [same, rewritten.changed]
        rfl
      · rwa [rewritten.kept next same]
    rw [step_ok.mpr ⟨turned, rewritten.directory.mpr directory, known', short⟩]
    exact ih others

theorem Rewritten.stuck (walked : names.foldlM after.step target = .ok last) : last = target := by
  cases names with
  | nil =>
    cases walked
    rfl
  | cons name rest =>
    rw [List.foldlM_cons] at walked
    obtain ⟨next, first, -⟩ := of_bind_ok walked
    exact absurd (rewritten.directory.mp (step_ok.mp first).2.1) rewritten.free

/-- What can be gone after could be gone before, unless it leads to the file. -/
theorem Rewritten.walk_back (walked : names.foldlM after.step way = .ok last) (apart : last ≠ target) :
    names.foldlM before.step way = .ok last := by
  induction names generalizing way with
  | nil => exact walked
  | cons name rest ih =>
    rw [List.foldlM_cons] at walked ⊢
    obtain ⟨next, first, others⟩ := of_bind_ok walked
    obtain ⟨turned, directory, known, short⟩ := step_ok.mp first
    by_cases same : next = target
    · rw [same] at others
      exact absurd (rewritten.stuck others) apart
    · rw [rewritten.kept next same] at known
      rw [step_ok.mpr ⟨turned, rewritten.directory.mp directory, known, short⟩]
      exact ih others

end

/-- The content of the file at a path, if there is a file. -/
def contentAt (files : FileTree) (path : TypeCatalog.Path) : Option ByteArray := (files.get path).toOption.bind contentOf

theorem follow_ok :
    tree.follow names = .ok node ↔ ∃ way, names.foldlM tree.step [] = .ok way ∧ tree.locate way = some node := by
  rw [follow]
  cases names.foldlM tree.step [] with
  | error failure => exact iff_of_false nofun (by rintro ⟨way, ⟨⟩, -⟩)
  | ok way =>
    simp only [bind, Except.bind, Except.ok.injEq, exists_eq_left']
    cases tree.locate way with
    | none => exact iff_of_false nofun nofun
    | some found =>
      constructor <;>
      · rintro ⟨⟩
        rfl

section
variable {files : FileTree} {path : TypeCatalog.Path} {text : String}

theorem contentAt_some : contentAt files path = some content ↔
    path.check = .ok () ∧ ∃ way, path.names.foldlM files.step [] = .ok way ∧ seen files way = some (some content) := by
  have shown (node : FileTree) : contentOf node = some content ↔ node = .file content := by
    cases node <;> simp [contentOf]
  have found : contentAt files path = some content ↔ files.get path = .ok (.file content) := by
    rw [contentAt]
    cases files.get path with
    | error failure => exact iff_of_false nofun nofun
    | ok node => simpa [Except.toOption] using shown node
  rw [found, FileTree.get]
  cases path.check with
  | error failure => exact iff_of_false nofun (by rintro ⟨⟨⟩, -⟩)
  | ok _ =>
    refine follow_ok.trans ?_
    simp only [seen, Option.map_eq_some_iff, shown, exists_eq_right, true_and]

theorem locate_append (tree : FileTree) (way others : List String) :
    tree.locate (way ++ others) = (tree.locate way).bind (locate · others) := by
  induction way generalizing tree with
  | nil => rfl
  | cons part rest ih =>
    cases tree with
    | file old => rfl
    | directory entries =>
      rw [List.cons_append, locate, locate]
      cases entries.lookup part with
      | none => rfl
      | some child => exact ih child

theorem straight_append (names : List String) (name : String) : straight (names ++ [name]) = turn (straight names) name := by
  rw [straight, List.foldl_append]
  rfl

/-- What it takes for a file to be written: a directory that can be gone to, and a name in it that is no directory's. -/
structure Writable (files : FileTree) (path : TypeCatalog.Path) (around : List String) (name : String) : Prop where
  names : path.names = around ++ [name]
  legible : path.check = .ok ()
  proper : (name == ".." || name == Path.root) = false
  short : ¬ Path.maxName < name.utf8ByteSize
  reached : around.foldlM files.step [] = .ok (straight around)
  directory : seen files (straight around) = some none
  free : seen files (straight around ++ [name]) ≠ some none

theorem seen_inside {way : List String} (located : files.locate way = some (.directory entries)) (name : String) :
    seen files (way ++ [name]) = (entries.lookup name).map contentOf := by
  rw [seen, locate_append, located, Option.bind_some, locate]
  cases entries.lookup name <;> rfl

private theorem writeText_named {around : List String} (named : path.names = around ++ [name]) (checked : path.check = .ok ()) :
    files.writeText path text = .ok after ↔ ∃ entries, files.follow around = .ok (.directory entries) ∧
      (name == ".." || name == Path.root) = false ∧ ¬ Path.maxName < name.utf8ByteSize ∧
      (entries.lookup name).map contentOf ≠ some none ∧ after = put name (.file text.toUTF8) (straight around) files := by
  have unmade {failure : Failure} : (.error failure : Except Failure FileTree) ≠ .ok after := by
    intro made
    cases made
  have made {result : FileTree} : (.ok result : Except Failure FileTree) = .ok after ↔ after = result := by
    rw [Except.ok.injEq, eq_comm]
  rw [writeText, checked]
  simp only [named, List.getLast?_concat, List.dropLast_concat, ok_bind]
  cases files.follow around with
  | error failure => exact iff_of_false unmade (by rintro ⟨entries, ⟨⟩, -⟩)
  | ok node =>
    cases node with
    | file old => exact iff_of_false unmade (by rintro ⟨entries, ⟨⟩, -⟩)
    | directory entries =>
      simp only [ok_bind, Except.ok.injEq, FileTree.directory.injEq, exists_eq_left']
      cases name == ".." || name == Path.root with
      | true => exact iff_of_false unmade (by rintro ⟨⟨⟩, -⟩)
      | false =>
        by_cases long : Path.maxName < name.utf8ByteSize
        · rw [if_pos long]
          exact iff_of_false unmade fun held => held.2.1 long
        · rw [if_neg long]
          cases entries.lookup name with
          | none => exact made.trans (by simp [long])
          | some entry =>
            cases entry with
            | file old => exact made.trans (by simp [long, contentOf])
            | directory inner => exact iff_of_false unmade fun held => held.2.2.1 rfl

/-- A file is written exactly if it is writable, and is then put where it is. -/
theorem writeText_ok : files.writeText path text = .ok after ↔
    ∃ around name, Writable files path around name ∧ after = put name (.file text.toUTF8) (straight around) files := by
  constructor
  · intro written
    obtain ⟨_, checked, -⟩ := of_bind_ok written
    rcases List.eq_nil_or_concat path.names with none | ⟨around, name, named⟩
    · rw [writeText, checked, none] at written
      cases written
    · rw [List.concat_eq_append] at named
      obtain ⟨entries, followed, proper, short, free, same⟩ := (writeText_named named checked).mp written
      obtain ⟨way, walked, located⟩ := follow_ok.mp followed
      cases walk_straight walked
      have directory : seen files (straight around) = some none := by rw [seen, straight, located]; rfl
      exact ⟨around, name, ⟨named, checked, proper, short, walked, directory, by rwa [straight, seen_inside located]⟩, same⟩
  · rintro ⟨around, name, writable, rfl⟩
    obtain ⟨entries, located⟩ := seen_directory writable.directory
    have free := writable.free
    rw [seen_inside located] at free
    exact (writeText_named writable.names writable.legible).mpr
      ⟨entries, follow_ok.mpr ⟨_, writable.reached, located⟩, writable.proper, writable.short, free, rfl⟩

/-- Files at other places keep their contents, and where there was none there is none. -/
theorem Rewritten.contentAt_other (rewritten : Rewritten before target content after) {other : TypeCatalog.Path}
    (apart : straight other.names ≠ target) : contentAt after other = contentAt before other := by
  apply Option.ext
  intro held
  rw [contentAt_some, contentAt_some, and_congr_right_iff]
  intro _
  have elsewhere {tree : FileTree} {way : List String} (walked : other.names.foldlM tree.step [] = .ok way) : way ≠ target := by
    rintro rfl
    exact apart (walk_straight walked).symm
  constructor
  · rintro ⟨way, walked, shown⟩
    refine ⟨way, rewritten.walk_back walked (elsewhere walked), ?_⟩
    rwa [← rewritten.kept way (elsewhere walked)]
  · rintro ⟨way, walked, shown⟩
    refine ⟨way, rewritten.walk walked, ?_⟩
    rwa [rewritten.kept way (elsewhere walked)]

section
variable {around : List String} (writable : Writable files path around name)
include writable

theorem Writable.straight_names : straight path.names = straight around ++ [name] := by
  have proper := writable.proper
  rw [Bool.or_eq_false_iff] at proper
  rw [writable.names, straight_append, turn, if_pos]
  rw [bne, proper.1]
  rfl

theorem Writable.rewritten (content : ByteArray) :
    Rewritten files (straight path.names) content (put name (.file content) (straight around) files) := by
  rw [writable.straight_names]
  refine ⟨writable.free, ?_, ?_⟩
  · rw [seen_put writable.directory writable.free, if_pos rfl]
  · intro way apart
    rw [seen_put writable.directory writable.free, if_neg apart]

theorem Writable.again (content : ByteArray) :
    Writable (put name (.file content) (straight around) files) path around name := by
  have rewritten := writable.rewritten content
  refine { writable with
    reached := rewritten.walk writable.reached
    directory := rewritten.directory.mpr writable.directory
    free := ?_ }
  rw [← writable.straight_names, rewritten.changed]
  exact nofun

theorem Writable.contentAt (content : ByteArray) :
    contentAt (put name (.file content) (straight around) files) path = some content := by
  have again := writable.again content
  have rewritten := writable.rewritten content
  refine contentAt_some.mpr ⟨writable.legible, straight path.names, ?_, rewritten.changed⟩
  rw [again.names, List.foldlM_append, again.reached]
  have last : step (put name (.file content) (straight around) files) (straight around) name = .ok (straight path.names) := by
    refine step_ok.mpr ⟨?_, again.directory, by rw [rewritten.changed]; rfl, ?_⟩
    · rw [writable.names, straight_append]
    · rw [Bool.and_eq_true, decide_eq_true_eq]
      exact fun long => writable.short long.2
  change step _ (straight around) name >>= _ = _
  rw [last, writable.names]
  rfl

end

end

end

end TypeCatalog.Proofs
