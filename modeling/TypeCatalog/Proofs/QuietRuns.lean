import TypeCatalog.Command.Run
import TypeCatalog.Proofs.Attempts

/-! Runs whose log shows on the standard error stream alone. Each part of such a run ends as a computation on the files
does, whatever was logged before it. The handlers themselves are arbitrary functions on the world. -/

namespace TypeCatalog.Proofs
open Command

/-- A world without log output. -/
def silent (world : World) : World := { world with stderr := world.stderr.filter (·.isTold), events := [] }

/-- Handlers that do not fail, and write to the standard error stream alone. -/
def Confined (handlers : Handlers) : Prop :=
  ∀ events world, ∃ later, handlers events world = (.ok (), later) ∧ silent later = silent world

/-- A part of a run that ends as a computation on the files does, and leaves nothing behind but log output. -/
def ReadOnly {α : Type} (action : Action α) (result : FileTree → Except Stop α) : Prop :=
  ∀ world, ∃ later, action world = (result world.files, later) ∧ silent later = silent world

section
variable {α β : Type} {action : Action α} {next : α → Action β} {world later other : World} {handlers : Handlers}

theorem run_ok {value : α} (ran : action world = (.ok value, later)) : (action >>= next) world = next value later := by
  simp only [bind, ran]

theorem run_error {reason : Stop} (ran : action world = (.error reason, later)) :
    (action >>= next) world = (.error reason, later) := by
  simp only [bind, ran]

theorem run_reads {result : FileTree → Except Failure α} {value : α} (found : result world.files = .ok value) :
    Action.reads result world = (.ok value, world) := by
  change Action.ofResult (result world.files) world = _
  rw [found]
  rfl

instance : LawfulMonad Action := .mk' Action
  (fun action => funext fun world => by
    rcases ran : action world with ⟨_ | _, later⟩
    · exact run_error ran
    · exact run_ok ran)
  (fun _ _ => rfl)
  (fun action first second => funext fun world => by
    rcases ran : action world with ⟨_ | _, later⟩
    · rw [run_error ran, run_error (run_error ran)]
    · rw [run_ok ran]
      rcases again : first _ later with ⟨_ | _, last⟩
      · rw [run_error again, run_error ((run_ok ran).trans again)]
      · rw [run_ok again, run_ok ((run_ok ran).trans again)])

theorem files_of_silent (same : silent world = silent other) : world.files = other.files := by
  change (silent world).files = (silent other).files
  rw [same]

theorem log_handled {event : Event} (handled : handlers (world.events ++ [event]) world = (.ok (), later)) :
    Action.log handlers event world = (.ok (), { later with events := world.events ++ [event] }) := by
  simp only [Action.log, handled]
  rfl

namespace ReadOnly

theorem pure (value : α) : ReadOnly (Pure.pure value) fun _ => .ok value := fun world => ⟨world, rfl, rfl⟩

theorem stop (reason : Stop) : ReadOnly (Action.stop reason : Action α) fun _ => .error reason :=
  fun world => ⟨world, rfl, rfl⟩

theorem log (confined : Confined handlers) (event : Event) : ReadOnly (Action.log handlers event) fun _ => .ok () := by
  intro world
  obtain ⟨later, handled, kept⟩ := confined (world.events ++ [event]) world
  exact ⟨_, log_handled handled, kept⟩

theorem bind {result : FileTree → Except Stop α} {more : α → FileTree → Except Stop β} (first : ReadOnly action result)
    (second : ∀ value, ReadOnly (next value) (more value)) :
    ReadOnly (action >>= next) fun files => result files >>= (more · files) := by
  intro world
  obtain ⟨later, ran, kept⟩ := first world
  dsimp only
  cases found : result world.files with
  | error reason =>
    rw [found] at ran
    exact ⟨later, run_error ran, kept⟩
  | ok value =>
    rw [found] at ran
    obtain ⟨last, ended, same⟩ := second value later
    rw [files_of_silent kept] at ended
    exact ⟨last, (run_ok ran).trans ended, same.trans kept⟩

theorem agree {result other : FileTree → Except Stop α} (own : ReadOnly action result)
    (same : ∀ files, result files = other files) : ReadOnly action other := by
  rwa [funext same] at own

theorem after_log (confined : Confined handlers) (event : Event) {result : FileTree → Except Stop α}
    (rest : ReadOnly action result) : ReadOnly (Action.log handlers event >>= fun _ => action) result :=
  (log confined event).bind fun _ => rest

theorem with_files {next : FileTree → Action α} {result : FileTree → Except Stop α}
    (rest : ∀ files, ReadOnly (next files) fun _ => result files) : ReadOnly (Action.files >>= next) result :=
  fun world => rest world.files world

theorem ofResult (result : Except Failure α) : ReadOnly (Action.ofResult result) fun _ => result.mapError .failed := by
  cases result with
  | ok value => exact pure value
  | error failure => exact stop _

theorem reads (result : FileTree → Except Failure α) :
    ReadOnly (Action.reads result) fun files => (result files).mapError .failed :=
  with_files fun _ => ofResult _

theorem mapM {make : β → Action α} {made : FileTree → β → Except Stop α}
    (each : ∀ member, ReadOnly (make member) (made · member)) (members : List β) :
    ReadOnly (members.mapM make) fun files => members.mapM (made files) := by
  induction members with
  | nil => exact pure []
  | cons member rest ih =>
    simp only [List.mapM_cons]
    exact (each member).bind fun _ => ih.bind fun _ => pure _

end ReadOnly

def sourceIn (files : FileTree) (path : TypeCatalog.Path) : Except Stop (List Definition) :=
  match Source.parseFile files path with
  | .ok definitions => .ok definitions
  | .error (.source error) => .error (.rejected path error)
  | .error failure => .error (.failed failure)

def itemsFrom (files : FileTree) (configuration : Marked Nat) (options : Options) (definitions : List Definition) :
    Except Failure (List (Marked Origin)) := do
  if options.raw then return definitions.map fun definition => .plain definition.data
  let conf := configuration.view
  let records ← Library.load files (predefinedPaths conf ++ options.predefined) (some Predefined.standard)
  let registry ← Registry.ofRecords (records.map (·.view))
  normalized records configuration registry (← tablesOf conf) definitions

/-- The document that a command line asks for, and its format. -/
def documentFrom (files : FileTree) (configuration : Marked Nat) (options : Options) :
    Except Stop (Format × List (Marked Origin)) := do
  let format ← (outputFormat configuration.view options).mapError .failed
  let paths ← (expand files options.paths).mapError .failed
  let parsed ← paths.mapM (sourceIn files)
  let items ← (itemsFrom files configuration options parsed.flatten).mapError .failed
  return (format, items)

theorem mapError_bind (result : Except Failure α) (next : α → Except Failure β) :
    (result >>= next).mapError Stop.failed = result.mapError Stop.failed >>= fun value => (next value).mapError .failed := by
  cases result <;> rfl

theorem mapError_mapM (make : α → Except Failure β) (members : List α) :
    (members.mapM make).mapError Stop.failed = members.mapM fun member => (make member).mapError .failed := by
  induction members with
  | nil => rfl
  | cons member rest ih =>
    rw [List.mapM_cons, List.mapM_cons, mapError_bind, ← ih]
    cases make member with
    | error failure => rfl
    | ok value => cases rest.mapM make <;> rfl

theorem readOnly_source (confined : Confined handlers) (path : TypeCatalog.Path) :
    ReadOnly (readSource handlers path) (sourceIn · path) := by
  apply ReadOnly.after_log confined
  apply ReadOnly.with_files
  intro files
  rw [sourceIn]
  cases Source.parseFile files path with
  | ok definitions => exact ReadOnly.after_log confined _ (.pure definitions)
  | error failure =>
    cases failure with
    | source error => exact ReadOnly.after_log confined _ (.stop _)
    | _ => exact ReadOnly.stop _

theorem readSource_rejected {path : TypeCatalog.Path} {error : Source.Error}
    (started : Action.log handlers (.parsing path) world = (.ok (), later))
    (rejected : Source.parseFile later.files path = .error (.source error))
    (told : Action.log handlers (.rejected path error) later = (.ok (), other)) :
    readSource handlers path world = (.error (.rejected path error), other) := by
  rw [readSource, run_ok started]
  change conclude handlers path (Source.parseFile later.files path) later = _
  rw [rejected, conclude, run_ok told]
  rfl

theorem readOnly_sources (confined : Confined handlers) (paths : List TypeCatalog.Path) :
    ReadOnly (readSources handlers paths) fun files => do return (← paths.mapM (sourceIn files)).flatten :=
  (ReadOnly.mapM (readOnly_source confined) paths).bind fun parsed => .pure parsed.flatten

theorem readOnly_records (confined : Confined handlers) (paths : List TypeCatalog.Path) :
    ReadOnly (loadRecords handlers paths) fun files =>
      (Library.load files paths (some Predefined.standard)).mapError .failed := by
  have each (path : TypeCatalog.Path) : ReadOnly (do
      let records ← Action.reads (Library.recordsAt · path)
      Action.log handlers (.loaded path records.length)
      return records) fun files => (Library.recordsAt files path).mapError .failed := by
    refine ((ReadOnly.reads _).bind fun records => ReadOnly.after_log confined _ (.pure records)).agree fun files => ?_
    cases Library.recordsAt files path <;> rfl
  refine (ReadOnly.after_log confined _ ((ReadOnly.mapM each paths).bind fun loaded => .pure _)).agree fun files => ?_
  rw [Library.load, mapError_bind, mapError_mapM]
  rfl

theorem readOnly_output (confined : Confined handlers) (configuration : Marked Nat) (options : Options)
    (definitions : List Definition) : ReadOnly (output handlers configuration options definitions) fun files =>
      (itemsFrom files configuration options definitions).mapError .failed := by
  by_cases raw : options.raw = true
  · rw [output, if_pos raw]
    refine (ReadOnly.pure _).agree fun files => ?_
    rw [itemsFrom, if_pos raw]
    rfl
  · rw [output, if_neg raw]
    refine ((readOnly_records confined _).bind fun records => (ReadOnly.ofResult _).bind fun registry =>
      (ReadOnly.ofResult _).bind fun tables => ReadOnly.after_log confined _ (ReadOnly.ofResult _)).agree fun files => ?_
    rw [itemsFrom, if_neg raw]
    simp only [mapError_bind]

theorem readOnly_gather (confined : Confined handlers) (configuration : Marked Nat) (options : Options) :
    ReadOnly (gather handlers configuration options) (documentFrom · configuration options) := by
  refine ((ReadOnly.ofResult _).bind fun format => (ReadOnly.reads _).bind fun paths => (readOnly_sources confined paths).bind
    fun definitions => (readOnly_output confined configuration options definitions).bind fun items =>
      ReadOnly.after_log confined _ (.pure (format, items))).agree fun files => ?_
  simp only [documentFrom, bind_assoc, pure_bind]
  rfl

def quieted (outcome : Command.Outcome) : Command.Outcome := { outcome with world := silent outcome.world }

theorem finish_quieted (host : Host) (result : Except Stop Unit) (world : World) :
    quieted (finish host (result, world)) = finish host (result, silent world) := by
  cases result with
  | ok => rfl
  | error reason =>
    simp only [finish, quieted, silent, World.tell, List.filter_append]
    rfl

theorem deliver_silent (host : Host) (path : Option TypeCatalog.Path) (text : Except Failure String) (world : World) :
    deliver host path text (silent world) = ((deliver host path text world).1, silent (deliver host path text world).2) := by
  cases path with
  | some path =>
    simp only [deliver]
    change Action.ofResult (Document.writeMade world.files path text).1 _ = _
    cases (Document.writeMade world.files path text).1 <;> rfl
  | none => cases text <;> rfl

theorem finish_deliver (host : Host) (path : Option TypeCatalog.Path) (text : Except Failure String) (world : World) :
    quieted (finish host (deliver host path text world)) = finish host (deliver host path text (silent world)) := by
  rw [deliver_silent]
  exact finish_quieted host _ _

end

end TypeCatalog.Proofs
