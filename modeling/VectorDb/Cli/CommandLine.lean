import VectorDb.Cli.Args
import VectorDb.Cli.Commands
import VectorDb.Db.Catalogue
import VectorDb.Util.VectorCsv
import VectorDb.Util.VectorIo

/-!
src/cli/main.cpp: a process is a command line that is read, a database that is opened, one
command and an exit code. What a script is told by the exit codes is what has happened to its
databases.
-/
set_option autoImplicit false

namespace VectorDb.Cli

open VectorDb.Lib VectorDb.Storage VectorDb.Util VectorDb.Index VectorDb.Db Throwing

/-- What the C library makes of numbers, and what the files are that a command line names. -/
structure Surroundings where
  strtof : Text → FloatConversion
  strtod : Text → Conversion
  file : Text → Except Error Bytes

section Vector
variable (strtof : Text → FloatConversion)

/-- The variables of the loop of `parse_vector_literal`. -/
structure VectorLiteral where
  values : FloatVector
  token : Text

/-- The `flush` of `parse_vector_literal`. -/
def VectorLiteral.flush (s : VectorLiteral) : Except Error VectorLiteral :=
  if s.token = [] then .ok s
  else
    let notNumber := .invalidArgument ("component " ++ toString s.values.length ++
      " of the vector is not a number: '" ++ asText s.token ++ "'")
    match stof strtof s.token with
    | none => .error notNumber
    | some (value, consumed) =>
      if consumed = s.token.length then .ok ⟨s.values ++ [value], []⟩ else .error notNumber

/-- A character of `", \t[]"`. -/
def separatesComponents (c : Byte) : Bool := c == 44 || c == 32 || c == 9 || c == 91 || c == 93

def VectorLiteral.step (s : VectorLiteral) (c : Byte) : Except Error VectorLiteral :=
  if separatesComponents c then s.flush strtof else .ok { s with token := s.token ++ [c] }

def parseVectorLiteral (text : Text) : Except Error FloatVector := do
  let s ← text.foldlM (VectorLiteral.step strtof) ⟨[], []⟩
  let s ← s.flush strtof
  if s.values = [] then
    .error (.invalidArgument ("empty vector: expected comma- or space-separated " ++
      "numbers, for example \"0.1,0.2,0.3\""))
  else .ok s.values

end Vector

/-- What a command does with the database it has opened. -/
inductive Request where
  | info
  | insert (id : Option VectorId) (vector : FloatVector) (metadata : Metadata)
  | get (id : VectorId)
  | delete (id : VectorId)
  | search (query : FloatVector) (options : QueryOptions)
  | rebuildIndex
  | compact

/-- What a command prints. -/
inductive Answer where
  | created
  | info
  | inserted (id : VectorId)
  | found (stored : StoredVector)
  | deleted (removed : Bool)
  | results (results : List QueryResult)
  | rebuilt
  | compacted (reclaimed : Nat)

section Requests
variable (around : Surroundings)

def readQuery : Reading FloatVector := do
  let literal ← value (ascii "query")
  let file ← value (ascii "query-file")
  match literal, file with
  | some _, some _ => throw (.invalidArgument "pass either --query or --query-file, not both")
  | some literal, none => fromExcept (parseVectorLiteral around.strtof literal)
  | none, some path => do
    let batch ← fromExcept (do readVectorMatrix (asText path) (← around.file path))
    match batch.vectors.rows with
    | [] => throw (.invalidArgument ("'" ++ asText path ++ "' contains no vectors"))
    | first :: _ => return first
  | none, none => throw (.invalidArgument
      "a query is required: --query \"0.1,0.2,0.3\" or --query-file query.vecs")

def readFilter : Reading Filter := do
  match ← value (ascii "filter") with
  | none => return []
  | some text => fromExcept (Filter.parse (takenWhole around.strtod) text)

def readQueryOptions : Reading QueryOptions := do
  let k ← number (ascii "k") 10
  let efSearch ← number (ascii "ef-search") 0
  let exact ← has (ascii "exact")
  let oversample ← number (ascii "oversample") 0
  let filter ← readFilter around
  return ⟨k, efSearch, filter, exact, oversample, true⟩

/-- The id that `command_get` and `command_delete` are given. -/
def readId (text : Text) : Except Error VectorId :=
  match stoull text with
  | none => .error (.invalidArgument ("'" ++ asText text ++ "' is not a valid vector id"))
  | some (id, _) => .ok id

def readInsert : Reading Request := do
  let vector ← fromExcept (parseVectorLiteral around.strtof (← require (ascii "vector")))
  let metadata := readMetadata around.strtod (← repeated (ascii "meta"))
  let hasId ← has (ascii "id")
  let id ← number (ascii "id") 0
  rejectUnknownOptions
  return .insert (if hasId then some (Fin.ofNat 18446744073709551616 id) else none) vector metadata

def readGet : Reading Request := do
  let text ← requirePositional 1 "a vector id"
  let _ ← number (ascii "preview") 8
  rejectUnknownOptions
  return .get (← fromExcept (readId text))

def readDelete : Reading Request := do
  let text ← requirePositional 1 "a vector id"
  rejectUnknownOptions
  return .delete (← fromExcept (readId text))

def readSearch : Reading Request := do
  let query ← readQuery around
  let options ← readQueryOptions around
  let _ ← has (ascii "time")
  rejectUnknownOptions
  return .search query options

/-- What a command without options of its own reads. -/
def readNothing (request : Request) : Reading Request := do
  rejectUnknownOptions
  return request

/-- The commands that open a database, as the table of `main` has them. -/
def commandTable : List (Text × Reading Request) :=
  [(ascii "info", readNothing .info), (ascii "insert", readInsert around), (ascii "get", readGet),
    (ascii "delete", readDelete), (ascii "search", readSearch around),
    (ascii "rebuild-index", readNothing .rebuildIndex), (ascii "compact", readNothing .compact)]

def readMetric : Reading Metric := do
  match ← value (ascii "metric") with
  | none => return .cosine
  | some name =>
    match parseMetric (asText name) with
    | none => throw (.invalidArgument ("unknown metric '" ++ asText name ++
        "'; expected l2, cosine or dot"))
    | some metric => return metric

def readIndexType : Reading IndexType := do
  match ← value (ascii "index") with
  | none => return .hnsw
  | some name =>
    match parseIndexType (asText name) with
    | none => throw (.invalidArgument ("unknown index type '" ++ asText name ++
        "'; expected hnsw or brute_force"))
    | some indexType => return indexType

/-- The defaults are those of `DatabaseConfig`; `Dimension` keeps 32 bits of the number. -/
def readConfig : Reading DatabaseConfig := do
  let dimension ← requireNumber (ascii "dimension")
  let metric ← readMetric
  let indexType ← readIndexType
  let normalize ← has (ascii "normalize")
  let m ← number (ascii "m") 16
  let efConstruction ← number (ascii "ef-construction") 200
  let efSearch ← number (ascii "ef-search") 64
  let seed ← number (ascii "seed") 42
  rejectUnknownOptions
  return ⟨dimension % 4294967296, metric, indexType, ⟨m, efConstruction, efSearch,
    BitVec.ofNat 64 seed⟩, normalize⟩

def kLevelNames : List String := ["trace", "debug", "info", "warn", "warning", "error", "off"]

/-- `configure`: the options that every command has. -/
def configure : Reading Unit := do
  let _ ← has (ascii "json")
  let _ ← has (ascii "quiet")
  let _ ← has (ascii "verbose")
  match ← value (ascii "log-level") with
  | none => pure ()
  | some name =>
    if asText name ∉ kLevelNames then
      throw (.invalidArgument ("unknown log level '" ++ asText name ++
        "'; expected trace, debug, info, warn, error or off"))
  let _ ← value (ascii "log-file")

end Requests

/-- The databases there are, each in its place in the file system. -/
abbrev World (Place : Type) := Place → Option Disk

/-- The file system finds the place that a path names, in whatever spelling, or tells why no
directory can be made there. -/
abbrev Locate (Place : Type) := Text → Except Error Place

/-- The database that a path names, with its place. -/
def databaseAt {Place : Type} (locate : Locate Place) (w : World Place) (path : Text) :
    Option (Place × Disk) :=
  (locate path).toOption.bind fun place => (w place).map fun d => (place, d)

theorem databaseAt_eq_some {Place : Type} {locate : Locate Place} {w : World Place} {path : Text}
    {place : Place} {d : Disk} :
    databaseAt locate w path = some (place, d) ↔ locate path = .ok place ∧ w place = some d := by
  simp only [databaseAt, Option.bind_eq_some_iff, Except.toOption_eq_some, Option.map_eq_some_iff,
    Prod.mk.injEq]
  constructor
  · rintro ⟨_, hplace, _, hd, rfl, rfl⟩
    exact ⟨hplace, hd⟩
  · rintro ⟨hplace, hd⟩
    exact ⟨place, hplace, d, hd, rfl, rfl⟩

section Process
variable {K : Type} [BEq K] [LT K] [DecidableLT K] (p : Platform K) (env : Environment)
variable {Place : Type} [DecidableEq Place] (locate : Locate Place)

def Request.run : Request → Db.Call Answer
  | .info => return .info
  | .insert (some id) vector metadata => do
    Db.insert p env id vector metadata
    flush env
    return .inserted id
  | .insert none vector metadata => do
    let id ← insertAuto p env vector metadata
    flush env
    return .inserted id
  | .get id => do
    match ← getVector env id with
    | none => throw (.notFound ("no vector with id " ++ toString id.val))
    | some stored => return .found stored
  | .delete id => do
    let removed ← remove env id
    flush env
    return .deleted removed
  | .search query options => do return .results (← Db.search p env query options)
  | .rebuildIndex => do
    Db.rebuildIndex p env
    return .rebuilt
  | .compact => do return .compacted (← Db.compact p env)

/-- A command on a database that is there: it is opened, the options are read, and what is
open at the end is destroyed. -/
def withDatabase (read : Reading Request) (args : Args) (d : Disk) : Except Error Answer × Disk :=
  match exec (openDatabase p env) d.directory with
  | (.error e, t) => (.error e, t.disk)
  | (.ok db, t) =>
    let ended : Except Error Answer × Handle := match (exec read args).1 with
      | .error e => (.error e, ⟨t, db⟩)
      | .ok request => exec (request.run p env) ⟨t, db⟩
    (ended.1, (exec (destroy env) ended.2).2.disk)

/-- A command of the table. -/
def runCommand (read : Reading Request) (args : Args) (w : World Place) :
    Except Error Answer × World Place :=
  match exec (requirePositional 0 "a database path") args with
  | (.error e, _) => (.error e, w)
  | (.ok path, args) =>
    match databaseAt locate w path with
    | none => (.error (.notFound ("no database at '" ++ asText path ++ "'")), w)
    | some (place, d) =>
      let ended := withDatabase p env read args d
      (ended.1, Function.update w place (some ended.2))

/-- `command_create`. -/
def commandCreate (args : Args) (w : World Place) : Except Error Answer × World Place :=
  match (exec (do return (← requirePositional 0 "a database path", ← readConfig)) args).1 with
  | .error e => (.error e, w)
  | .ok (path, config) =>
    match config.validate with
    | .error e => (.error e, w)
    | .ok _ =>
      match locate path with
      | .error e => (.error e, w)
      | .ok place =>
        if (w place).isSome then
          (.error (.invalidArgument ("'" ++ asText path ++
            "' already exists; refusing to overwrite it")), w)
        else
          match exec (Db.create p env config) newDirectory with
          | (.error e, t) => (.error e, Function.update w place (some t.disk))
          | (.ok db, t) =>
            (.ok .created, Function.update w place (some (exec (destroy env) ⟨t, db⟩).2.disk))

def kExitOk : Nat := 0

def kExitError : Nat := 1

def kExitUsage : Nat := 2

/-- Caught by `catch (const InvalidArgumentError&)`. -/
def isInvalidArgument : Error → Bool
  | .invalidArgument _ | .dimensionMismatch _ _ | .invalidVector _ => true
  | _ => false

def exitCode : Except Error Answer → Nat
  | .ok (.deleted false) => kExitError
  | .ok _ => kExitOk
  | .error e => if isInvalidArgument e then kExitUsage else kExitError

/-- How a process ends: what it has printed, and what the databases are then. -/
structure Exit (Place : Type) where
  code : Nat
  answer : Option Answer
  world : World Place

def Exit.of (ended : Except Error Answer × World Place) : Exit Place :=
  ⟨exitCode ended.1, ended.1.toOption, ended.2⟩

variable (around : Surroundings)

def kHelpCommands : List Text := [ascii "help", ascii "--help", ascii "-h"]

def kVersionCommands : List Text := [ascii "version", ascii "--version", ascii "-V"]

/-- The commands of the table that are not modelled here. -/
def kOtherCommands : List Text :=
  [ascii "stats", ascii "batch-search", ascii "import", ascii "export", ascii "generate",
    ascii "check"]

/-- The command is none that opens or makes a database. -/
def isNotModelled (command : Text) : Bool :=
  kHelpCommands.contains command || kVersionCommands.contains command ||
    kOtherCommands.contains command

/-- What `main` does with a command once its arguments are read. -/
def dispatch (command : Text) (args : Args) (w : World Place) : Exit Place :=
  if command = ascii "create" then .of (commandCreate p env locate args w)
  else match (commandTable around).lookup command with
    | some read => .of (runCommand p env locate read args w)
    | none => ⟨kExitUsage, none, w⟩

/-- `main`; nothing is said of the commands that are not modelled. -/
def main (argv : List Text) (w : World Place) : Option (Exit Place) :=
  match argv with
  | [] => some ⟨kExitUsage, none, w⟩
  | command :: rest =>
    if kHelpCommands.contains command then some ⟨kExitOk, none, w⟩
    else if kVersionCommands.contains command then some ⟨kExitOk, none, w⟩
    else
      match Args.parse rest with
      | .error e => some (.of (.error e, w))
      | .ok args =>
        match exec configure args with
        | (.error e, _) => some (.of (.error e, w))
        | (.ok _, args) =>
          if kOtherCommands.contains command then none
          else some (dispatch p env locate around command args w)

end Process

def kGlobalOptions : List Text := ["json", "quiet", "verbose", "log-level", "log-file"].map ascii

def kCreateOptions : List Text :=
  ["dimension", "metric", "index", "normalize", "m", "ef-construction", "ef-search", "seed"].map ascii

def kInsertOptions : List Text := ["vector", "meta", "id"].map ascii

def kGetOptions : List Text := ["preview"].map ascii

def kSearchOptions : List Text :=
  ["query", "query-file", "k", "ef-search", "exact", "oversample", "filter", "time"].map ascii

/-- The options a command knows beside those that all of them have. -/
def optionsOf (command : Text) : List Text :=
  if command = ascii "create" then kCreateOptions
  else if command = ascii "insert" then kInsertOptions
  else if command = ascii "get" then kGetOptions
  else if command = ascii "search" then kSearchOptions
  else []

section Knows
variable (around : Surroundings)

theorem configure_asks : Asks kGlobalOptions (fun _ => True) configure := by
  refine .bind (.has (by simp [kGlobalOptions])) fun _ _ => ?_
  refine .bind (.has (by simp [kGlobalOptions])) fun _ _ => ?_
  refine .bind (.has (by simp [kGlobalOptions])) fun _ _ => ?_
  refine .bind (.value (by simp [kGlobalOptions])) fun level _ => ?_
  have hrest : Asks kGlobalOptions (fun _ => True) (do let _ ← value (ascii "log-file")) :=
    .bind (.value (by simp [kGlobalOptions])) fun _ _ => .pure trivial
  cases level with
  | none => exact hrest
  | some name =>
    dsimp only
    split
    · exact .bind (.throw (P := fun _ => True) _) fun _ _ => hrest
    · exact hrest

theorem readMetric_asks : Asks kCreateOptions (fun _ => True) readMetric := by
  refine .bind (.value (by simp [kCreateOptions])) fun name _ => ?_
  cases name with
  | none => exact .pure trivial
  | some name =>
    dsimp only
    split
    · exact .throw _
    · exact .pure trivial

theorem readIndexType_asks : Asks kCreateOptions (fun _ => True) readIndexType := by
  refine .bind (.value (by simp [kCreateOptions])) fun name _ => ?_
  cases name with
  | none => exact .pure trivial
  | some name =>
    dsimp only
    split
    · exact .throw _
    · exact .pure trivial

/-- `std::size_t` fields hold what is read for them. -/
theorem readConfig_knows : Knows kCreateOptions DatabaseConfig.Sized readConfig := by
  refine .bind (.requireNumber (by simp [kCreateOptions])) fun dimension _ => ?_
  refine .bind readMetric_asks fun metric _ => ?_
  refine .bind readIndexType_asks fun indexType _ => ?_
  refine .bind (.has (by simp [kCreateOptions])) fun normalize _ => ?_
  refine .bind (.number (by simp [kCreateOptions]) (by decide)) fun m hm => ?_
  refine .bind (.number (by simp [kCreateOptions]) (by decide)) fun efConstruction hc => ?_
  refine .bind (.number (by simp [kCreateOptions]) (by decide)) fun efSearch hs => ?_
  refine .bind (.number (by simp [kCreateOptions]) (by decide)) fun seed _ => ?_
  exact .of_reject (.pure ⟨hm, hc, hs⟩)

theorem readInsert_knows : Knows kInsertOptions (fun _ => True) (readInsert around) := by
  refine .bind (.require (by simp [kInsertOptions])) fun text _ => ?_
  refine .bind (.fromExcept (P := fun _ => True) fun _ _ => trivial) fun vector _ => ?_
  refine .bind (.repeated (by simp [kInsertOptions])) fun pairs _ => ?_
  refine .bind (.has (by simp [kInsertOptions])) fun hasId _ => ?_
  refine .bind (.number (by simp [kInsertOptions]) (by decide)) fun id _ => ?_
  exact .of_reject (.pure trivial)

theorem readGet_knows : Knows kGetOptions (fun _ => True) readGet := by
  refine .bind (.requirePositional 1 _) fun text _ => ?_
  refine .bind (.number (by simp [kGetOptions]) (by decide)) fun preview _ => ?_
  exact .of_reject (.bind (.fromExcept (P := fun _ => True) fun _ _ => trivial) fun _ _ => .pure trivial)

theorem readDelete_knows : Knows [] (fun _ => True) readDelete := by
  refine .bind (.requirePositional 1 _) fun text _ => ?_
  exact .of_reject (.bind (.fromExcept (P := fun _ => True) fun _ _ => trivial) fun _ _ => .pure trivial)

theorem readQuery_asks : Asks kSearchOptions (fun _ => True) (readQuery around) := by
  refine .bind (.value (by simp [kSearchOptions])) fun literal _ => ?_
  refine .bind (.value (by simp [kSearchOptions])) fun file _ => ?_
  cases literal with
  | some literal =>
    cases file with
    | some file => exact .throw _
    | none => exact .fromExcept fun _ _ => trivial
  | none =>
    cases file with
    | none => exact .throw _
    | some path =>
      refine .bind (.fromExcept (P := fun _ => True) fun _ _ => trivial) fun batch _ => ?_
      cases batch.vectors.rows with
      | nil => exact .throw _
      | cons first rest => exact .pure trivial

theorem readFilter_asks : Asks kSearchOptions (fun _ => True) (readFilter around) := by
  refine .bind (.value (by simp [kSearchOptions])) fun text _ => ?_
  cases text with
  | none => exact .pure trivial
  | some text => exact .fromExcept fun _ _ => trivial

theorem readQueryOptions_asks : Asks kSearchOptions (fun _ => True) (readQueryOptions around) := by
  refine .bind (.any (.number (by simp [kSearchOptions]) (by decide))) fun k _ => ?_
  refine .bind (.any (.number (by simp [kSearchOptions]) (by decide))) fun efSearch _ => ?_
  refine .bind (.has (by simp [kSearchOptions])) fun exact _ => ?_
  refine .bind (.any (.number (by simp [kSearchOptions]) (by decide))) fun oversample _ => ?_
  exact .bind (readFilter_asks around) fun _ _ => .pure trivial

theorem readSearch_knows : Knows kSearchOptions (fun _ => True) (readSearch around) := by
  refine .bind (readQuery_asks around) fun query _ => ?_
  refine .bind (readQueryOptions_asks around) fun options _ => ?_
  refine .bind (.has (by simp [kSearchOptions])) fun time _ => ?_
  exact .of_reject (.pure trivial)

theorem commandTable_knows : ∀ entry ∈ commandTable around,
    Knows (optionsOf entry.1) (fun _ => True) entry.2 := by
  have hnothing : ∀ request, Knows [] (fun _ => True) (readNothing request) := fun request =>
    .of_reject (.pure trivial)
  simp only [commandTable, List.forall_mem_cons]
  exact ⟨hnothing _, readInsert_knows around, readGet_knows, readDelete_knows,
    readSearch_knows around, hnothing _, hnothing _, by simp⟩

end Knows

/-- What a command line asks for. -/
inductive Job where
  | create (config : DatabaseConfig)
  | ask (request : Request)

section Asked
variable (around : Surroundings)

def readJob (command : Text) : Option (Reading Job) :=
  if command = ascii "create" then some (do return .create (← readConfig))
  else ((commandTable around).lookup command).map fun read => do return .ask (← read)

def readAsked (read : Reading Job) : Reading (Text × Job) := do
  configure
  let path ← requirePositional 0 "a database path"
  return (path, ← read)

/-- Of which database something is asked, and what. -/
def askedOf : List Text → Option (Text × Job)
  | [] => none
  | command :: rest =>
    if isNotModelled command then none
    else
      match readJob around command, Args.parse rest with
      | some read, .ok args => (exec (readAsked read) args).1.toOption
      | _, _ => none

end Asked

section Ran
variable {K : Type} [BEq K] [LT K] [DecidableLT K] (p : Platform K) (env : Environment)
variable {Place : Type} [DecidableEq Place] (locate : Locate Place) (around : Surroundings)

/-- How a process ends. -/
inductive Ran (argv : List Text) (w : World Place) : Exit Place → Prop where
  | idle {exit : Exit Place} : exit.world = w → exit.answer = none →
    (exit.code = kExitOk → askedOf around argv = none) →
    (∀ path request, askedOf around argv = some (path, .ask request) →
      databaseAt locate w path = none) →
    Ran argv w exit
  | created {path : Text} {place : Place} {config : DatabaseConfig} {db : Database}
      {t : Directory} :
    askedOf around argv = some (path, .create config) → config.validate = .ok () → config.Sized →
    locate path = .ok place → w place = none →
    exec (Db.create p env config) newDirectory = (.ok db, t) →
    Ran argv w (.of (.ok .created,
      Function.update w place (some (exec (destroy env) ⟨t, db⟩).2.disk)))
  | notCreated {path : Text} {place : Place} {config : DatabaseConfig} {e : Error}
      {t : Directory} :
    askedOf around argv = some (path, .create config) → config.validate = .ok () → config.Sized →
    locate path = .ok place → w place = none →
    exec (Db.create p env config) newDirectory = (.error e, t) →
    Ran argv w (.of (.error e, Function.update w place (some t.disk)))
  | asked {path : Text} {place : Place} {read : Reading Request} {args : Args} {d : Disk} :
    locate path = .ok place → w place = some d →
    askedOf around argv = (exec read args).1.toOption.map (fun request => (path, .ask request)) →
    Ran argv w (.of ((withDatabase p env read args d).1,
      Function.update w place (some (withDatabase p env read args d).2)))

variable {p env locate around} {argv : List Text} {command : Text} {rest : List Text}
  {w : World Place} {exit : Exit Place} {args args' : Args}

theorem askedOf_parsed {read : Reading Job} (hcommand : isNotModelled command = false)
    (hread : readJob around command = some read) (hparse : Args.parse rest = .ok args)
    (hconfigure : exec configure args = (.ok (), args')) :
    askedOf around (command :: rest) = (exec (do
      let path ← requirePositional 0 "a database path"
      return (path, ← read) : Reading (Text × Job)) args').1.toOption := by
  rw [askedOf, hcommand, if_neg (by simp), hread, hparse]
  simp only [readAsked, exec_bind_ok hconfigure]

/-- What cannot be read is nothing that is asked for. -/
theorem askedOf_eq_none (h : ∀ args read, Args.parse rest = .ok args →
    (exec (readAsked read) args).1.toOption = none) : askedOf around (command :: rest) = none := by
  rw [askedOf]
  split
  · rfl
  · split
    next read args hread hparse => exact h args read hparse
    next => rfl

theorem ran_idle (hworld : exit.world = w) (hanswer : exit.answer = none)
    (hasked : askedOf around argv = none) : Ran p env locate around argv w exit :=
  .idle hworld hanswer (fun _ => hasked) fun _ _ h => by rw [hasked] at h; cases h

/-- Where it fails before it comes to a database, a process has done nothing. -/
theorem ran_failed {e : Error} (h : ∀ path request,
      askedOf around argv = some (path, .ask request) → databaseAt locate w path = none) :
    Ran p env locate around argv w (.of (.error e, w)) :=
  .idle rfl rfl (fun hcode => by
    rw [Exit.of, exitCode] at hcode
    split at hcode <;> cases hcode) h

theorem commandCreate_ran
    (hasked : askedOf around argv = (exec (do
      let path ← requirePositional 0 "a database path"
      return (path, ← (do return Job.create (← readConfig))) : Reading (Text × Job)) args).1.toOption) :
    Ran p env locate around argv w (.of (commandCreate p env locate args w)) := by
  unfold commandCreate
  simp only [exec_bind] at hasked ⊢
  rcases hfirst : exec (requirePositional 0 "a database path") args with ⟨path, args⟩
  rw [hfirst] at hasked
  cases path with
  | error e => exact ran_failed fun _ _ h => by rw [hasked] at h; cases h
  | ok path =>
    dsimp only at hasked ⊢
    have hsized : ∀ config, (exec readConfig args).1 = .ok config → config.Sized :=
      fun config h => (readConfig_knows args config h).1
    rcases hconfig : exec readConfig args with ⟨config, args⟩
    rw [hconfig] at hasked hsized
    cases config with
    | error e => exact ran_failed fun _ _ h => by rw [hasked] at h; cases h
    | ok config =>
      dsimp only [exec_pure] at hasked ⊢
      have hother : ∀ path request, askedOf around argv = some (path, .ask request) →
          databaseAt locate w path = none := fun _ _ h => by rw [hasked] at h; cases h
      cases hvalid : config.validate with
      | error e => exact ran_failed hother
      | ok u =>
        cases hplace : locate path with
        | error e => exact ran_failed hother
        | ok place =>
          dsimp only
          cases hpath : w place with
          | some d => exact ran_failed hother
          | none =>
            dsimp only [Option.isSome_none]
            rcases hexec : exec (Db.create p env config) newDirectory with ⟨db, t⟩
            cases db with
            | error e => exact .notCreated hasked hvalid (hsized config rfl) hplace hpath hexec
            | ok db => exact .created hasked hvalid (hsized config rfl) hplace hpath hexec

theorem runCommand_ran {read : Reading Request}
    (hasked : askedOf around argv = (exec (do
      let path ← requirePositional 0 "a database path"
      return (path, ← (do return Job.ask (← read))) : Reading (Text × Job)) args).1.toOption) :
    Ran p env locate around argv w (.of (runCommand p env locate read args w)) := by
  unfold runCommand
  simp only [exec_bind] at hasked
  rcases hfirst : exec (requirePositional 0 "a database path") args with ⟨path, args⟩
  rw [hfirst] at hasked
  cases path with
  | error e => exact ran_failed fun _ _ h => by rw [hasked] at h; cases h
  | ok path =>
    dsimp only at hasked ⊢
    have hasked' : askedOf around argv =
        (exec read args).1.toOption.map fun request => (path, .ask request) := by
      rw [hasked]
      rcases exec read args with ⟨request, args⟩
      cases request <;> rfl
    cases hpath : databaseAt locate w path with
    | some found =>
      obtain ⟨hplace, hd⟩ := databaseAt_eq_some.mp hpath
      exact .asked hplace hd hasked'
    | none =>
      refine ran_failed fun other request h => ?_
      rw [hasked', Option.map_eq_some_iff] at h
      obtain ⟨_, -, heq⟩ := h
      rw [← (Prod.mk.inj heq).1]
      exact hpath

theorem main_ran (hmain : main p env locate around argv w = some exit) :
    Ran p env locate around argv w exit := by
  unfold main at hmain
  cases argv with
  | nil =>
    obtain rfl := Option.some.inj hmain
    exact ran_idle rfl rfl rfl
  | cons command rest =>
    dsimp only at hmain
    by_cases hhelp : kHelpCommands.contains command = true
    · rw [if_pos hhelp] at hmain
      obtain rfl := Option.some.inj hmain
      exact ran_idle rfl rfl (by rw [askedOf, isNotModelled, hhelp, if_pos (by rfl)])
    rw [if_neg hhelp] at hmain
    by_cases hversion : kVersionCommands.contains command = true
    · rw [if_pos hversion] at hmain
      obtain rfl := Option.some.inj hmain
      exact ran_idle rfl rfl
        (by rw [askedOf, isNotModelled, hversion, Bool.or_true, if_pos (by rfl)])
    rw [if_neg hversion] at hmain
    cases hparse : Args.parse rest with
    | error e =>
      rw [hparse] at hmain
      obtain rfl := Option.some.inj hmain
      refine ran_idle rfl rfl (askedOf_eq_none fun args read hok => ?_)
      rw [hparse] at hok
      cases hok
    | ok args =>
      rw [hparse] at hmain
      dsimp only at hmain
      rcases hconfigure : exec configure args with ⟨r, args'⟩
      rw [hconfigure] at hmain
      cases r with
      | error e =>
        obtain rfl := Option.some.inj hmain
        refine ran_idle rfl rfl (askedOf_eq_none fun parsed read hok => ?_)
        obtain rfl : args = parsed := Except.ok.inj (hparse.symm.trans hok)
        rw [readAsked, exec_bind_error hconfigure]
        rfl
      | ok u =>
        dsimp only at hmain
        by_cases hother : kOtherCommands.contains command = true
        · rw [if_pos hother] at hmain
          cases hmain
        rw [if_neg hother] at hmain
        obtain rfl := Option.some.inj hmain
        have hcommand : isNotModelled command = false := by
          simp only [isNotModelled, hhelp, hversion, hother, Bool.or_self]
        unfold dispatch
        by_cases hcreate : command = ascii "create"
        · rw [if_pos hcreate]
          refine commandCreate_ran ?_
          rw [askedOf_parsed hcommand (by rw [readJob, if_pos hcreate]) hparse hconfigure]
        · rw [if_neg hcreate]
          cases hread : (commandTable around).lookup command with
          | none =>
            have hnone : readJob around command = none := by
              rw [readJob, if_neg hcreate, hread, Option.map_none]
            exact ran_idle rfl rfl (by rw [askedOf, hcommand, if_neg (by simp), hnone])
          | some read =>
            refine runCommand_ran ?_
            rw [askedOf_parsed hcommand (by rw [readJob, if_neg hcreate, hread, Option.map_some])
              hparse hconfigure]

/-- What is asked of a database is also run. -/
theorem exists_exit (h : askedOf around argv ≠ none) :
    ∃ exit, main p env locate around argv w = some exit := by
  cases argv with
  | nil => exact absurd rfl h
  | cons command rest =>
    rw [askedOf] at h
    split at h
    · exact absurd rfl h
    next hcommand =>
      unfold main
      dsimp only
      have hother : ¬ kOtherCommands.contains command = true := fun h => hcommand (by
        rw [isNotModelled, h, Bool.or_true])
      repeat' split
      all_goals exact ⟨_, rfl⟩

theorem readJob_knows {read : Reading Job} (hread : readJob around command = some read) :
    Knows (optionsOf command) (fun _ => True) read := by
  unfold readJob at hread
  split at hread
  next hcreate =>
    obtain rfl := Option.some.inj hread
    rw [optionsOf, if_pos hcreate]
    exact readConfig_knows.map _
  next =>
    obtain ⟨request, hrequest, rfl⟩ := Option.map_eq_some_iff.mp hread
    obtain ⟨before, after, htable, -⟩ := List.lookup_eq_some_iff.mp hrequest
    exact (commandTable_knows around (command, request) (by simp [htable])).map _

/-- What is asked for is asked without options that nobody knows. -/
theorem askedOf_knows {asked : Text × Job} (hasked : askedOf around (command :: rest) = some asked)
    {arguments : List Argument} (hspells : Spells rest arguments) {name value : Text}
    (hname : .setting name value ∈ arguments) : name ∈ kGlobalOptions ++ optionsOf command := by
  rw [askedOf] at hasked
  split at hasked
  · cases hasked
  cases hread : readJob around command with
  | none => rw [hread] at hasked; cases hasked
  | some read =>
    cases hparse : Args.parse rest with
    | error e => rw [hread, hparse] at hasked; cases hasked
    | ok args =>
      rw [hread, hparse] at hasked
      have hknows : Knows (kGlobalOptions ++ optionsOf command) (fun _ => True) (readAsked read) :=
        .bind (configure_asks.mono (List.subset_append_left ..)) fun _ _ =>
        .bind (.requirePositional 0 _) fun path _ =>
        ((readJob_knows hread).mono (List.subset_append_right ..)).map _
      obtain ⟨hcollected, hacceptable⟩ := hspells.collected hparse
      have hok : (exec (readAsked read) args).1 = .ok asked := by
        dsimp only at hasked
        cases hresult : (exec (readAsked read) args).1 with
        | error e => rw [hresult] at hasked; cases hasked
        | ok r => rw [hresult] at hasked; cases hasked; rfl
      rcases (hknows args asked hok).2 name (hcollected.has hacceptable hname) with h | h
      · rw [hcollected.touched] at h
        exact absurd h List.not_mem_nil
      · exact h

/-- A database is not used before its options are read. -/
theorem exists_request {read : Reading Request} {d : Disk} {answer : Answer}
    (h : (withDatabase p env read args d).1 = .ok answer) :
    ∃ request, (exec read args).1 = .ok request := by
  unfold withDatabase at h
  split at h
  · cases h
  · cases hread : (exec read args).1 with
    | error e => rw [hread] at h; cases h
    | ok request => exact ⟨request, rfl⟩

/-- A command that answers knows every option that it was given. -/
theorem answer_knows_options (hmain : main p env locate around (command :: rest) w = some exit)
    (hanswer : exit.answer.isSome) {arguments : List Argument} (hspells : Spells rest arguments)
    {name value : Text} (hname : .setting name value ∈ arguments) :
    name ∈ kGlobalOptions ++ optionsOf command := by
  cases main_ran hmain with
  | idle _ hnone => rw [hnone] at hanswer; cases hanswer
  | created hasked => exact askedOf_knows hasked hspells hname
  | notCreated => cases hanswer
  | @asked path place read args d _ _ hasked =>
    obtain ⟨answer, hok⟩ : ∃ answer, (withDatabase p env read args d).1 = .ok answer := by
      cases hended : (withDatabase p env read args d).1 with
      | error e => rw [Exit.of, hended] at hanswer; cases hanswer
      | ok answer => exact ⟨answer, rfl⟩
    obtain ⟨request, hrequest⟩ := exists_request hok
    rw [hrequest] at hasked
    exact askedOf_knows hasked hspells hname

end Ran

/-- Decimals and nothing else, and no files. -/
def plainSurroundings : Surroundings :=
  ⟨naturalStrtof, simpleStrtod, fun path => .error (.io ("cannot open '" ++ asText path ++ "'"))⟩

/-- `create one --dimension 1`. -/
def createOne : List Text := ["create", "one", "--dimension", "1"].map ascii

def oneDimensional : DatabaseConfig := ⟨1, .cosine, .hnsw, ⟨16, 200, 64, 42#64⟩, false⟩

/-- The current directory is the root, and `.` and empty names are skipped. -/
def locateFromRoot : Locate (List Text)
  | [] => .error (.io "cannot create '': No such file or directory")
  | path => .ok ((path.splitOn 47).filter fun name => name != [] && name != [46])

example : locateFromRoot (ascii "./one/") = locateFromRoot (ascii "one") := by decide

def World.empty : World (List Text) := fun _ => none

theorem main_createOne {K : Type} [BEq K] [LT K] [DecidableLT K] {p : Platform K}
    {env : Environment} {db : Database} {t : Directory}
    (hexec : exec (Db.create p env oneDimensional) newDirectory = (.ok db, t)) :
    main p env locateFromRoot plainSurroundings createOne .empty = some (.of (.ok .created,
      Function.update World.empty [ascii "one"] (some (exec (destroy env) ⟨t, db⟩).2.disk))) := by
  have hrun : main p env locateFromRoot plainSurroundings createOne .empty = some (.of
      (match exec (Db.create p env oneDimensional) newDirectory with
      | (.error e, t) => (.error e, Function.update World.empty [ascii "one"] (some t.disk))
      | (.ok db, t) => (.ok .created,
          Function.update World.empty [ascii "one"] (some (exec (destroy env) ⟨t, db⟩).2.disk)))) :=
    rfl
  rw [hrun, hexec]

theorem oneDimensional_valid : oneDimensional.validate = .ok () := by decide

theorem answer_knows_options_create :
    ascii "dimension" ∈ kGlobalOptions ++ optionsOf (ascii "create") := by
  obtain ⟨made, db, t, -, hexec, -⟩ := create_quiet unitPlatform quiet_faultless oneDimensional_valid
  have hone : isPositional (ascii "one") = true := by decide
  have hspells : Spells (createOne.drop 1)
      [.positional (ascii "one"), .setting (ascii "dimension") (ascii "1")] :=
    .positional hone (.separate (.long (by decide) (by decide)) (by decide) .nil)
  have hname : Argument.setting (ascii "dimension") (ascii "1") ∈
      [.positional (ascii "one"), .setting (ascii "dimension") (ascii "1")] := by simp
  exact answer_knows_options (main_createOne hexec) rfl hspells hname

end VectorDb.Cli
