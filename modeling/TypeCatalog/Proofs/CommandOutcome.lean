import TypeCatalog.Proofs.JsonRoundTrip
import TypeCatalog.Proofs.QuietRuns
import TypeCatalog.Proofs.SharedParts
import TypeCatalog.Proofs.TerminalControls

/-! What the command comes to. Source files are read in their order up to the first that is rejected, which is the one that
is told about, and then nothing is written. If none is rejected, the document has what each file comes to on its own, file
after file. -/

namespace TypeCatalog.Proofs
open TypeCatalog.Normal Command

section
variable {files : FileTree} {user : TypeCatalog.Path} {configuration : Marked Nat}

theorem readConfiguration_valid {path : TypeCatalog.Path} (found : readConfiguration files path = .ok configuration) :
    Standard.repository.validate Standard.configurationId configuration.view = .ok () ∧ DistinctMarked configuration := by
  obtain ⟨document, read, found⟩ := of_bind_ok found
  dsimp only at found
  obtain ⟨_, valid, same⟩ := of_bind_ok found
  cases same
  refine ⟨valid, ?_⟩
  split
  next =>
    obtain ⟨format, -, read⟩ := of_bind_ok read
    obtain ⟨text, -, read⟩ := of_bind_ok read
    cases format with
    | none => cases read
    | some format => exact decodeMarked_distinct read
  next => exact .object none .nil (List.forall_mem_nil _)

theorem findConfiguration_some (path : TypeCatalog.Path) :
    findConfiguration files user (some path) = readConfiguration files path := by
  simp only [findConfiguration, pure_bind]

theorem findConfiguration_valid {path : Option TypeCatalog.Path}
    (found : findConfiguration files user path = .ok configuration) :
    Standard.repository.validate Standard.configurationId configuration.view = .ok () ∧ DistinctMarked configuration := by
  cases path with
  | some path =>
    rw [findConfiguration_some] at found
    exact readConfiguration_valid found
  | none =>
    obtain ⟨chosen, -, found⟩ := of_bind_ok found
    cases chosen with
    | some path => exact readConfiguration_valid found
    | none =>
      cases found
      exact ⟨rfl, .object none .nil (List.forall_mem_nil _)⟩

/-- A source file that can be read, without runs of digits that are too long. -/
def Readable (files : FileTree) (path : TypeCatalog.Path) : Prop :=
  ∃ text, files.readText path = .ok text ∧ ¬ Overlong (Source.unifyLineEnds text.toList)

theorem parseFile_text {path : TypeCatalog.Path} {text : String} (held : files.readText path = .ok text) :
    Source.parseFile files path = Source.parse text := by
  rw [Source.parseFile, held]
  rfl

theorem parseFile_outcome {path : TypeCatalog.Path} (readable : Readable files path) :
    (∃ error, Source.parseFile files path = .error (.source error)) ∨
      ∃ definitions, Source.parseFile files path = .ok definitions ∧ ∀ definition ∈ definitions, Parsed definition := by
  obtain ⟨text, read, short⟩ := readable
  rw [parseFile_text read]
  cases parsed : Source.parse text with
  | ok definitions => exact .inr ⟨definitions, rfl, fun definition listed => ⟨text, definitions, parsed, listed⟩⟩
  | error failure =>
    rcases parse_failed parsed with ⟨error, rfl⟩ | ⟨rfl, long⟩
    · exact .inl ⟨error, rfl⟩
    · exact absurd long short

/-- A file that is rejected, while those before it are read. -/
structure FirstRejected (files : FileTree) (paths : List TypeCatalog.Path) (path : TypeCatalog.Path) (error : Source.Error) :
    Prop where
  placed : ∃ before after, paths = before ++ path :: after ∧
    ∀ earlier ∈ before, ∃ definitions, Source.parseFile files earlier = .ok definitions
  rejected : Source.parseFile files path = .error (.source error)

/-- What is read of files, each on its own. -/
def EachRead (files : FileTree) : List TypeCatalog.Path → List (List Definition) → Prop :=
  List.Forall₂ fun path definitions => Source.parseFile files path = .ok definitions

/-- Files are read up to the first that is rejected. -/
theorem sources_outcome {paths : List TypeCatalog.Path} (readable : ∀ path ∈ paths, Readable files path) :
    (∃ path error, FirstRejected files paths path error ∧ paths.mapM (sourceIn files) = .error (.rejected path error)) ∨
    ∃ parsed, EachRead files paths parsed ∧ (∀ definitions ∈ parsed, ∀ definition ∈ definitions, Parsed definition) ∧
      paths.mapM (sourceIn files) = .ok parsed := by
  induction paths with
  | nil => exact .inr ⟨[], .nil, List.forall_mem_nil _, rfl⟩
  | cons path rest ih =>
    obtain ⟨own, others⟩ := List.forall_mem_cons.mp readable
    rw [List.mapM_cons, sourceIn]
    rcases parseFile_outcome own with ⟨error, rejected⟩ | ⟨definitions, accepted, proper⟩
    · rw [rejected]
      exact .inl ⟨path, error, ⟨⟨[], rest, rfl, List.forall_mem_nil _⟩, rejected⟩, rfl⟩
    · rw [accepted]
      dsimp only
      rcases ih others with ⟨late, error, first, stopped⟩ | ⟨parsed, each, proper', all⟩
      · obtain ⟨⟨before, after, rfl, accepts⟩, rejected⟩ := first
        refine .inl ⟨late, error, ⟨⟨path :: before, after, rfl, ?_⟩, rejected⟩, by rw [stopped]; rfl⟩
        exact List.forall_mem_cons.mpr ⟨⟨definitions, accepted⟩, accepts⟩
      · refine .inr ⟨definitions :: parsed, .cons accepted each, List.forall_mem_cons.mpr ⟨proper, proper'⟩, ?_⟩
        rw [all]
        rfl

end

section
variable {registry : Registry} {tables : WellKnown}

theorem normalizeAll_append (registry : Option Registry) (first second : List Draft) :
    normalizeAll registry tables (first ++ second) = match normalizeAll registry tables first with
      | (results, some failure) => (results, some failure)
      | (results, none) => match normalizeAll registry tables second with
        | (more, failure) => (results ++ more, failure) := by
  induction first with
  | nil => rfl
  | cons draft rest ih =>
    rw [List.cons_append, normalizeAll, normalizeAll]
    cases normalize registry tables draft with
    | error failure => rfl
    | ok result =>
      dsimp only
      rw [ih]
      rcases normalizeAll registry tables rest with ⟨results, _ | failure⟩ <;> rfl

theorem recordsOf_append (first second : List Definition) : recordsOf registry tables (first ++ second) = do
    return (← recordsOf registry tables first) ++ (← recordsOf registry tables second) := by
  rw [recordsOf, List.map_append, normalizeAll_append, recordsOf, recordsOf]
  generalize normalizeAll (some registry) tables (first.map (·.draft)) = own
  generalize normalizeAll (some registry) tables (second.map (·.draft)) = others
  obtain ⟨results, _ | failure⟩ := own
  · obtain ⟨more, _ | failure⟩ := others
    · exact congrArg Except.ok (List.map_append ..)
    · rfl
  · rfl

/-- The records of the definitions in all files are those of each file on its own, one after the other. -/
theorem recordsOf_flatten (parsed : List (List Definition)) : recordsOf registry tables parsed.flatten = do
    return (← parsed.mapM (recordsOf registry tables)).flatten := by
  induction parsed with
  | nil => rfl
  | cons first rest ih =>
    rw [List.flatten_cons, recordsOf_append, ih, List.mapM_cons]
    cases recordsOf registry tables first with
    | error failure => rfl
    | ok own =>
      cases rest.mapM (recordsOf registry tables) <;> rfl

end

/-- Logging accepts a configuration on a tree of files, and shows on the standard error stream alone: neither setting up
its handlers nor what they do fails, or changes a file or the standard output. -/
def LogsApart (logging : Logging) (configuration : Data) (files : FileTree) : Prop :=
  ∃ handlers later, logging configuration { files } = (.ok handlers, later) ∧ silent later = { files } ∧
    Confined handlers

/-- A command line with a configuration that loads, a format that is told and source files that can be read. -/
structure Admitted (host : Host) (files : FileTree) (arguments : List String) (options : Options)
    (configuration : Marked Nat) (format : Format) (paths : List TypeCatalog.Path) : Prop where
  asked : Request.ofArguments arguments = .convert options
  configured : findConfiguration files host.userDirectory options.conf = .ok configuration
  formatted : outputFormat configuration.view options = .ok format
  expanded : expand files options.paths = .ok paths
  readable : ∀ path ∈ paths, Readable files path

/-- An admitted command line, whose log shows on the standard error stream alone. -/
structure Ready (host : Host) (files : FileTree) (arguments : List String) (options : Options)
    (configuration : Marked Nat) (format : Format) (paths : List TypeCatalog.Path) : Prop extends
    Admitted host files arguments options configuration format paths where
  logged : LogsApart host.logging (loggingOf configuration.view options.logLevel) files

/-- Records, those of the standard with those from files over them, and the registry that they make up. -/
structure Supplies (files : FileTree) (configuration : Marked Nat) (options : Options) (records : List (Marked Nat))
    (registry : Registry) : Prop where
  loaded : Library.load files (predefinedPaths configuration.view ++ options.predefined) (some Predefined.standard) =
    .ok records
  built : Registry.ofRecords (records.map (·.view)) = .ok registry

/-- The document that is written holds some data: its text is that of items which, without their marks, are the data. -/
def Delivers (host : Host) (files : FileTree) (options : Options) (format : Format) (outcome : Command.Outcome)
    (list : List Data) : Prop :=
  ∃ items, quieted outcome = finish host (deliver host options.output (encodeOutput format items) { files }) ∧
    items.map (·.data) = list

section
variable {host : Host} {files : FileTree} {arguments : List String} {options : Options}
  {configuration : Marked Nat} {format : Format} {paths : List TypeCatalog.Path}

theorem run_unlogged (asked : Request.ofArguments arguments = .convert options)
    (configured : findConfiguration files host.userDirectory options.conf = .ok configuration) {reason : Stop} {later : World}
    (refused : setUp host (loggingOf configuration.view options.logLevel) { files } = (.error reason, later)) :
    Command.run host files arguments = finish host (.error reason, later) := by
  rw [Command.run, asked]
  dsimp only
  rw [convert, run_ok (run_reads configured), run_error refused]

/-- A run whose log shows on the standard error stream alone ends as a computation on the files does. -/
theorem run_quiet (asked : Request.ofArguments arguments = .convert options)
    (configured : findConfiguration files host.userDirectory options.conf = .ok configuration) {handlers : Handlers}
    {later : World} (started : setUp host (loggingOf configuration.view options.logLevel) { files } = (.ok handlers, later))
    (confined : Confined handlers) :
    quieted (Command.run host files arguments) = match documentFrom later.files configuration options with
      | .error reason => finish host (.error reason, silent later)
      | .ok (format, items) => finish host (deliver host options.output (encodeOutput format items) (silent later)) := by
  obtain ⟨last, gathered, kept⟩ := readOnly_gather confined configuration options later
  rw [Command.run, asked]
  dsimp only
  rw [convert, run_ok (run_reads configured), run_ok started]
  dsimp only at gathered
  cases document : documentFrom later.files configuration options with
  | error reason =>
    rw [document] at gathered
    rw [run_error gathered, finish_quieted, kept]
  | ok document =>
    rw [document] at gathered
    rw [run_ok gathered]
    dsimp only
    rw [finish_deliver, kept]

theorem documentFrom_expanded (formatted : outputFormat configuration.view options = .ok format)
    (expanded : expand files options.paths = .ok paths) : documentFrom files configuration options = do
      let parsed ← paths.mapM (sourceIn files)
      let items ← (itemsFrom files configuration options parsed.flatten).mapError .failed
      return (format, items) := by
  rw [documentFrom, formatted, expanded]
  rfl

theorem Ready.run (ready : Ready host files arguments options configuration format paths) :
    quieted (Command.run host files arguments) = match paths.mapM (sourceIn files) with
      | .error stop => finish host (.error stop, { files })
      | .ok parsed => match itemsFrom files configuration options parsed.flatten with
        | .error failure => finish host (.error (.failed failure), { files })
        | .ok items => finish host (deliver host options.output (encodeOutput format items) { files }) := by
  obtain ⟨handlers, later, taken, same, confined⟩ := ready.logged
  have started : setUp host (loggingOf configuration.view options.logLevel) { files } = (.ok handlers, later) := by
    rw [setUp, taken]
    rfl
  have held : later.files = files := congrArg World.files same
  rw [run_quiet ready.asked ready.configured started confined, same, held,
    documentFrom_expanded ready.formatted ready.expanded]
  cases paths.mapM (sourceIn files) with
  | error stop => rfl
  | ok parsed =>
    rw [ok_bind]
    dsimp only
    cases itemsFrom files configuration options parsed.flatten with
    | error failure => rfl
    | ok items => rfl

theorem itemsFrom_raw (raw : options.raw = true) (definitions : List Definition) :
    itemsFrom files configuration options definitions = .ok (definitions.map fun definition => .plain definition.data) := by
  rw [itemsFrom, if_pos raw]
  rfl

theorem itemsFrom_records {records : List (Marked Nat)} {registry : Registry} {tables : WellKnown}
    (normal : options.raw = false) (supplies : Supplies files configuration options records registry)
    (known : tablesOf configuration.view = .ok tables) (definitions : List Definition) :
    itemsFrom files configuration options definitions = normalized records configuration registry tables definitions := by
  rw [itemsFrom, if_neg (by rw [normal]; decide)]
  simp only [supplies.loaded, supplies.built, known, ok_bind]

private theorem run_rejected (ready : Ready host files arguments options configuration format paths)
    {path : TypeCatalog.Path} {error : Source.Error} (stopped : paths.mapM (sourceIn files) = .error (.rejected path error)) :
    ∃ line, ShownAs host.showsErrors (rejectionLine path error) line ∧ quieted (Command.run host files arguments) =
      { exitCode := 1, world := { files, stderr := [.told (line ++ "\n")] }, stopped := some (.rejected path error) } := by
  obtain ⟨line, echo, shows⟩ := echoed_shown host.showsErrors (rejectionLine path error)
  refine ⟨line, shows, ?_⟩
  rw [ready.run, stopped, ← echo]
  rfl

private theorem run_raw (ready : Ready host files arguments options configuration format paths) (raw : options.raw = true)
    {parsed : List (List Definition)} (read : paths.mapM (sourceIn files) = .ok parsed) :
    Delivers host files options format (Command.run host files arguments)
      (parsed.flatMap fun definitions => definitions.map (·.data)) := by
  refine ⟨parsed.flatten.map fun definition => .plain definition.data, ?_, ?_⟩
  · rw [ready.run, read]
    dsimp only
    rw [itemsFrom_raw raw]
  · rw [List.map_map, List.flatMap_def, ← List.map_flatten]
    exact List.map_congr_left fun definition _ => plain_data definition.data

private theorem run_records (ready : Ready host files arguments options configuration format paths)
    (normal : options.raw = false) {parsed : List (List Definition)} (read : paths.mapM (sourceIn files) = .ok parsed)
    (proper : ∀ definitions ∈ parsed, ∀ definition ∈ definitions, Parsed definition)
    {records : List (Marked Nat)} {registry : Registry} (supplies : Supplies files configuration options records registry) :
    ∃ tables, tablesOf configuration.view = .ok tables ∧ match parsed.mapM (recordsOf registry tables) with
      | .error failure => quieted (Command.run host files arguments) = finish host (.error (.failed failure), { files })
      | .ok lists => Delivers host files options format (Command.run host files arguments) lists.flatten := by
  obtain ⟨valid, distinct⟩ := findConfiguration_valid ready.configured
  obtain ⟨tables, known, governs⟩ := configuration_governs valid distinct
  refine ⟨tables, known, ?_⟩
  have all : ∀ definition ∈ parsed.flatten, Parsed definition := by
    intro definition listed
    obtain ⟨definitions, inside, own⟩ := List.mem_flatten.mp listed
    exact proper definitions inside definition own
  have shown := normalized_data governs supplies.built all
  have ran := ready.run
  rw [read] at ran
  dsimp only at ran
  rw [recordsOf_flatten] at shown
  rw [itemsFrom_records normal supplies known] at ran
  cases made : parsed.mapM (recordsOf registry tables) with
  | error failure =>
    rw [made] at shown
    have stopped : normalized records configuration registry tables parsed.flatten = .error failure := shown
    rwa [stopped] at ran
  | ok lists =>
    rw [made] at shown
    obtain ⟨items, made, same⟩ := shown
    rw [made] at ran
    exact ⟨items, ran, same⟩

theorem short_readable {path : TypeCatalog.Path} (text : String) (held : files.readText path = .ok text)
    (short : (Source.unifyLineEnds text.toList).length ≤ digitLimit) : Readable files path := by
  refine ⟨text, held, ?_⟩
  rintro ⟨run, inside, long, -⟩
  exact absurd (long.trans_le inside.length_le) (Nat.not_lt.mpr short)

end

private def noHeader : Source.Error := ⟨.missing (.pattern .header), 0, 1⟩

private theorem letter_rejected {files : FileTree} {path : TypeCatalog.Path} (held : files.readText path = .ok "b") :
    Source.parseFile files path = .error (.source noHeader) := by
  rw [parseFile_text held]
  cbv

/-- A host whose logging knows versions only. Its handlers do nothing, as those of the default configuration do with
messages below its level. -/
private def plainHost : Host := { userDirectory := ⟨["userconf"]⟩, logging := .versioned }

private theorem versioned_apart {configuration : Data} {files : FileTree}
    (version : configuration.find? "version" = some (.int 1)) : LogsApart .versioned configuration files := by
  refine ⟨fun _ world => (.ok (), world), { files }, ?_, rfl, fun _ world => ⟨world, rfl, rfl⟩⟩
  rw [Logging.versioned, version]
  rfl

private def twoSources : FileTree :=
  .directory [("a.asn", .file "A ::= NULL".toUTF8), ("b.asn", .file "b".toUTF8), ("out.json", .file "[]".toUTF8)]

private theorem twoSources_ready : Ready plainHost twoSources ["a.asn", "--output=out.json", "b.asn"]
    ⟨none, none, false, [], "WARNING", some ⟨["out.json"]⟩, [⟨["a.asn"]⟩, ⟨["b.asn"]⟩]⟩ (.object none []) .json
    [⟨["a.asn"]⟩, ⟨["b.asn"]⟩] where
  asked := by rfl
  configured := by rfl
  logged := versioned_apart rfl
  formatted := by rfl
  expanded := by rfl
  readable := by
    rw [List.forall_mem_cons, List.forall_mem_singleton]
    exact ⟨short_readable "A ::= NULL" (by rfl) (by decide), short_readable "b" (by rfl) (by decide)⟩

private def controlSource : FileTree := .directory [("\x1b[2Jx.asn", .file "b".toUTF8)]

private theorem controlSource_ready : Ready plainHost controlSource ["\x1b[2Jx.asn", "--raw"]
    ⟨none, none, true, [], "WARNING", none, [⟨["\x1b[2Jx.asn"]⟩]⟩ (.object none []) .yaml [⟨["\x1b[2Jx.asn"]⟩] where
  asked := by rfl
  configured := by rfl
  logged := versioned_apart rfl
  formatted := by rfl
  expanded := by rfl
  readable := List.forall_mem_singleton.mpr (short_readable "b" (by rfl) (by decide))

section
variable {text : String} {data : Data}

/-- Files with a configuration and a source file that is rejected. -/
private def configuredSource (text : String) : FileTree :=
  .directory [("conf.json", .file text.toUTF8), ("x.asn", .file "b".toUTF8)]

private theorem configuration_held (text : String) : (configuredSource text).readText ⟨["conf.json"]⟩ = .ok text := by
  have found : (configuredSource text).get ⟨["conf.json"]⟩ = .ok (.file text.toUTF8) := by rfl
  have whole : String.fromUTF8? text.toUTF8 = some text := by
    rw [String.fromUTF8?]
    simp only [String.toUTF8_eq_toByteArray, Option.dite_none_right_eq_some, Option.some.injEq]
    exact ⟨String.isValidUTF8 text, rfl⟩
  rw [FileTree.readText, found, ok_bind]
  dsimp only
  rw [whole]
  rfl

private theorem configuration_found (plain : '\r' ∉ text.toList) (decoded : Json.decode text = .ok data)
    (valid : Standard.repository.validate Standard.configurationId (Marked.distinct data).view = .ok ())
    (filled : (Marked.distinct data).data.holds = true) :
    findConfiguration (configuredSource text) ⟨["userconf"]⟩ (some ⟨["conf.json"]⟩) = .ok (.distinct data) := by
  have chosen : FormatChoice.bySuffix.resolve ⟨["conf.json"]⟩ = .ok (some .json) := by rfl
  have read : Document.readMarked (configuredSource text) ⟨["conf.json"]⟩ .bySuffix = .ok (.distinct data) := by
    simp only [Document.readMarked, chosen, configuration_held, ok_bind, unify_plain plain, String.ofList_toList,
      Format.decodeMarked, decoded]
    rfl
  rw [findConfiguration_some, readConfiguration, read, ok_bind]
  dsimp only
  rw [if_pos filled, valid, ok_bind]
  rfl

end

private def unversionedText : String := "\x7b\"log\":\x7b\"level\":null\x7d\x7d"

private def unversioned : Data := .record [("log", .record [("level", .null)])]

private theorem unversioned_found :
    findConfiguration (configuredSource unversionedText) ⟨["userconf"]⟩ (some ⟨["conf.json"]⟩) =
      .ok (.distinct unversioned) :=
  configuration_found (by decide) (by cbv) (by rfl) (by rfl)

private def loggedText : String :=
  "\x7b\"log\": \x7b\"version\": 1, \"handlers\": \x7b\"f\": \x7b\"class\": \"logging.FileHandler\", \"filename\": \"l\"\x7d, " ++
  "\"h\": \x7b\"class\": \"logging.StreamHandler\", \"stream\": \"ext://sys.stdout\"\x7d\x7d, " ++
  "\"loggers\": \x7b\"baclib.asn1.parser\": \x7b\"level\": \"DEBUG\", \"handlers\": [\"h\"]\x7d\x7d\x7d\x7d"

private def twoHandlers : Data := .record
  [("f", .record [("class", .text "logging.FileHandler"), ("filename", .text "l")]),
    ("h", .record [("class", .text "logging.StreamHandler"), ("stream", .text "ext://sys.stdout")])]

private def oneLogger : Data :=
  .record [("baclib.asn1.parser", .record [("level", .text "DEBUG"), ("handlers", .array [.text "h"])])]

private def logged : Data := .record [("log", .record [("version", .int 1), ("handlers", twoHandlers), ("loggers", oneLogger)])]

private theorem logged_lossless : Lossless logged := by
  have record {entries : List (String × Data)} (apart : (entries.map (·.1)).Nodup)
      (each : ∀ entry ∈ entries, Lossless entry.2) : Lossless (.record entries) := .object apart each
  have pair {first second : String} {one two : Data} (apart : first ≠ second) (left : Lossless one)
      (right : Lossless two) : Lossless (.record [(first, one), (second, two)]) :=
    record (by simpa using apart) (List.forall_mem_cons.mpr ⟨left, List.forall_mem_singleton.mpr right⟩)
  have handlers : Lossless twoHandlers :=
    pair (by decide) (pair (by decide) (.text _) (.text _)) (pair (by decide) (.text _) (.text _))
  have loggers : Lossless oneLogger := record (by decide)
    (List.forall_mem_singleton.mpr (pair (by decide) (.text _) (.array (List.forall_mem_singleton.mpr (.text _)))))
  have version : Lossless (.int 1) := .int (by decide)
  refine record (by decide) (List.forall_mem_singleton.mpr (record (by decide) ?_))
  exact List.forall_mem_cons.mpr ⟨version, List.forall_mem_cons.mpr ⟨handlers, List.forall_mem_singleton.mpr loggers⟩⟩

private theorem logged_found :
    findConfiguration (configuredSource loggedText) ⟨["userconf"]⟩ (some ⟨["conf.json"]⟩) = .ok (.distinct logged) := by
  have written : Json.encode none logged = .ok loggedText := by cbv
  have unindented : Indentable none logged := .inr fun _ listed => absurd listed (Option.not_mem_none _)
  obtain ⟨text, encoded, decoded⟩ := encode_decode logged_lossless unindented
  have same : text = loggedText := Except.ok.inj (encoded.symm.trans written)
  rw [same] at decoded
  exact configuration_found (by decide +kernel) decoded (by rfl) (by rfl)

/-- What is written of messages about the reading of source files. -/
private def printing : Handlers := fun events world =>
  let printed := match events.getLast? with
    | some (.parsing path) => "parsing " ++ path.text ++ "\n"
    | some (.parsed count) => "parsed " ++ String.ofList (natDigits count) ++ " definitions\n"
    | _ => ""
  (.ok (), { world with stdout := world.stdout ++ printed })

/-- Logging with a handler that opens its file, and with one that writes to the standard output. -/
private def printingLog : Logging := fun configuration world =>
  let option (handler name : String) : Option Data :=
    ((configuration.find? "handlers").bind (·.find? handler)).bind (·.find? name)
  match option "f" "filename", option "h" "stream" with
  | some (.text name), some (.text "ext://sys.stdout") =>
    (.ok printing, { world with files := world.files.place (.ofText name) (.file .empty) })
  | _, _ => Logging.versioned configuration world

private def printingHost : Host := { userDirectory := ⟨["userconf"]⟩, logging := printingLog }

private def confArguments : List String := ["--conf=conf.json", "x.asn"]

private def confOptions : Options := ⟨some ⟨["conf.json"]⟩, none, false, [], "WARNING", none, [⟨["x.asn"]⟩]⟩

private theorem conf_asked : Request.ofArguments confArguments = .convert confOptions := by rfl

private theorem conf_admitted {host : Host} {text : String} {data : Data} (user : host.userDirectory = ⟨["userconf"]⟩)
    (found : findConfiguration (configuredSource text) ⟨["userconf"]⟩ (some ⟨["conf.json"]⟩) = .ok (.distinct data))
    (formatted : outputFormat (Marked.distinct data).view confOptions = .ok .yaml) :
    Admitted host (configuredSource text) confArguments confOptions (.distinct data) .yaml [⟨["x.asn"]⟩] where
  asked := conf_asked
  configured := by rwa [user]
  formatted := formatted
  expanded := by rfl
  readable := List.forall_mem_singleton.mpr (short_readable "b" (by rfl) (by decide))

private theorem single_rejected {files : FileTree} {path : TypeCatalog.Path} (held : files.readText path = .ok "b") :
    FirstRejected files [path] path noHeader :=
  ⟨⟨[], [], rfl, List.forall_mem_nil _⟩, letter_rejected held⟩

private theorem control_unseen : (Command.run plainHost controlSource ["\x1b[2Jx.asn", "--raw"]).world.stderr ≠
    [.told (rejectionLine ⟨["\x1b[2Jx.asn"]⟩ noHeader ++ "\n")] := by
  intro told
  have refused : Source.parseFile controlSource ⟨["\x1b[2Jx.asn"]⟩ = .error (.source noHeader) := letter_rejected (by rfl)
  have ran := controlSource_ready.run
  rw [List.mapM_cons, sourceIn, refused] at ran
  have shown : [Printed.told (rejectionLine ⟨["\x1b[2Jx.asn"]⟩ noHeader ++ "\n")] =
      [.told (echoed false (rejectionLine ⟨["\x1b[2Jx.asn"]⟩ noHeader))] := by
    have same := congrArg (·.world.stderr) ran
    dsimp only [quieted, silent] at same
    rw [told] at same
    exact same
  exact absurd shown (by decide)

private theorem unversioned_stops : Command.run plainHost (configuredSource unversionedText) confArguments =
    finish plainHost (.error (.failed .badLogging), { files := configuredSource unversionedText }) := by
  have configured : loggingOf (Marked.distinct unversioned).view confOptions.logLevel = .record [("level", .null)] := by rfl
  refine run_unlogged conf_asked unversioned_found ?_
  rw [configured]
  rfl

/-- The files once the file of a handler is opened. -/
private def openedFiles : FileTree := (configuredSource loggedText).place ⟨["l"]⟩ (.file .empty)

/-- What is left behind once the source file is rejected. -/
private def printedWorld : World :=
  { files := openedFiles
    stdout := "parsing x.asn\n"
    events := [.parsing ⟨["x.asn"]⟩, .rejected ⟨["x.asn"]⟩ noHeader] }

private theorem printed_gathered : gather printing (Marked.distinct logged) confOptions { files := openedFiles } =
    (.error (.rejected ⟨["x.asn"]⟩ noHeader), printedWorld) := by
  have formatted : Action.ofResult (outputFormat (Marked.distinct logged).view confOptions) { files := openedFiles } =
      (.ok .yaml, { files := openedFiles }) := by rfl
  have expanded : Action.reads (expand · confOptions.paths) { files := openedFiles } =
      (.ok [⟨["x.asn"]⟩], { files := openedFiles }) := by rfl
  have refused : Source.parseFile openedFiles ⟨["x.asn"]⟩ = .error (.source noHeader) := letter_rejected (by rfl)
  have read : readSource printing ⟨["x.asn"]⟩ { files := openedFiles } =
      (.error (.rejected ⟨["x.asn"]⟩ noHeader), printedWorld) := readSource_rejected (by rfl) refused (by rfl)
  have all : readSources printing [⟨["x.asn"]⟩] { files := openedFiles } =
      (.error (.rejected ⟨["x.asn"]⟩ noHeader), printedWorld) := by
    rw [readSources, List.mapM_cons]
    exact run_error (run_error read)
  rw [gather, run_ok formatted, run_ok expanded, run_error all]

private theorem printed_seen : Command.run printingHost (configuredSource loggedText) confArguments =
    finish printingHost (.error (.rejected ⟨["x.asn"]⟩ noHeader), printedWorld) := by
  have configured : loggingOf (Marked.distinct logged).view confOptions.logLevel =
      .record [("version", .int 1), ("handlers", twoHandlers), ("loggers", oneLogger)] := by rfl
  have started : setUp printingHost (loggingOf (Marked.distinct logged).view confOptions.logLevel)
      { files := configuredSource loggedText } = (.ok printing, { files := openedFiles }) := by
    rw [configured]
    rfl
  have found : Action.reads (findConfiguration · printingHost.userDirectory confOptions.conf)
      { files := configuredSource loggedText } = (.ok (.distinct logged), { files := configuredSource loggedText }) :=
    run_reads logged_found
  rw [Command.run, conf_asked]
  dsimp only
  rw [convert, run_ok found, run_ok started, run_error printed_gathered]

end TypeCatalog.Proofs
