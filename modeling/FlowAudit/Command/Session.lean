import FlowAudit.Command.Verb
import FlowAudit.Config.Load
import FlowAudit.Database.Location
import FlowAudit.Service.Basic
import FlowAudit.Source.Directory
import FlowAudit.Source.Stored
import FlowAudit.Text.Character

namespace FlowAudit.Command

/-- What outlasts a command. -/
structure World where
  files : Files.Tree := {}
  environment : Environment := []
  /-- The databases by the paths of their files. Those without a file have other keys. -/
  databases : List (String × Database) := []
  now : Time
  /-- Identifiers to be given out, of which the first ones are used up. -/
  idOf : Nat → String
  issued : Nat := 0
  /-- What built the program. -/
  toolchain : String := ""

structure Session extends World where
  arguments : Arguments := {}
  config : Config := {}
  /-- The path of the file of settings, if there is one. -/
  configPath : String := ""
  /-- What was printed, the latest first. -/
  stdout : List String := []
  /-- What was printed beside it, the latest first. -/
  stderr : List String := []

abbrev Program := ExceptT Failure (StateM Session)

namespace Program

def lift {α : Type} (context : Failure → Failure) : Except Failure α → Program α
  | .ok a => return a
  | .error e => throw (context e)

def print (s : String) : Program Unit := modify fun t => { t with stdout := s :: t.stdout }

def printLine (s : String) : Program Unit := print (s ++ "\n")

def note (s : String) : Program Unit := modify fun t => { t with stderr := (s ++ "\n") :: t.stderr }

def isQuiet : Program Bool := return (← get).arguments.switch "quiet"

def unlessQuiet (p : Program Unit) : Program Unit := do if !(← isQuiet) then p

def text (name : String) : Program String := return (← get).arguments.text name

def switch (name : String) : Program Bool := return (← get).arguments.switch name

def logLevel : Program Log.Level := do
  let s ← get
  if s.arguments.switch "quiet" then return .error
  else if 0 < s.arguments.whole "verbose" then return .debug
  else return .ofWord s.config.log.level

def log (entries : List Log.Entry) : Program Unit := do
  let s ← get
  for line in Log.lines (← logLevel) (.ofWord s.config.log.format) s.now entries do
    note line

end Program

/-- An open database. -/
structure Handle where
  key : String
  dialect : Dialect

namespace Handle

def database (h : Handle) : Program Database := do
  match (← get).databases.find? (·.1 == h.key) with
  | some (_, db) => return db
  | none => return {}

def update (h : Handle) (db : Database) : Program Unit :=
  modify fun s => { s with databases := s.databases.filter (·.1 != h.key) ++ [(h.key, db)] }

def withStore {α : Type} (h : Handle) (f : Store → α × Store) : Program α := do
  let issued := (← get).issued
  let (a, store) := f { database := ← h.database, dialect := h.dialect, issued := issued }
  h.update store.database
  modify fun s => { s with issued := store.issued }
  return a

end Handle

namespace Program

def configFailure : Failure → Failure := .exitWith .config "store configuration"

def connectFailure (kind reason : String) : Failure :=
  .exitWith .database "connecting to store"
    (.within ("connecting to " ++ kind ++ " database") (.plain reason))

def openLocation : Database.Location → Program Handle
  | .memory => do
    let s ← get
    let h : Handle := { key := "memory " ++ Text.decimal s.databases.length, dialect := .sqlite }
    h.update {}
    return h
  | .file path => do
    let s ← get
    match Database.filePlace? s.files path with
    | none => throw (connectFailure "sqlite" "unable to open database file (14)")
    | some place =>
      let h : Handle := { key := place, dialect := .sqlite }
      if (s.databases.find? (·.1 == place)).isNone then
        match s.files.find place with
        | .ok (.file (_ :: _) _) => h.update { isForeign := true }
        | .ok _ => h.update {}
        | .error _ =>
          h.update {}
          modify fun s => { s with files := s.files.put place (.file [] s.now) }
      return h

def openDatabase (named : String) : Program Handle := do
  let c := (← get).config
  let dialect ← lift configFailure c.dialect
  let dsn ← if named != "" then pure named else lift configFailure c.dsn
  match dialect with
  | .sqlite => openLocation (.ofText dsn)
  | .postgres => throw (connectFailure "postgres" (Database.unreachable dsn))

/-- Opens the source of definitions; a directory that the command line names goes before the
settings. -/
def openSource (dir db : String) : Program Source := do
  let s ← get
  if dir != "" || !s.config.readsDatabase then
    return { tree := s.files, path := s.config.flowsDirOr dir : Directory }.source
  else
    let h ← openDatabase db
    return (← h.database).source false

def analysisOptions : Program (Resolver.Options × Int) := do
  let s ← get
  let c := s.config.analysis
  let positive (name : String) (otherwise : Int) :=
    if 0 < s.arguments.whole name then s.arguments.whole name else max otherwise 0
  let workers := positive "workers" c.workers
  return ({
    maxDepth := Resolver.limit (positive "max-depth" c.maxDepth)
    workers := Resolver.workerCount workers
    loops := {
      alternate := s.arguments.switch "alternate" || c.alternatePasses
      excludeExitEdges := s.arguments.switch "exclude-exit-edges" || c.excludeExitEdges } },
    workers)

end Program

end FlowAudit.Command
