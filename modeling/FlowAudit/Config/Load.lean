import FlowAudit.Config.Basic
import FlowAudit.Config.Environment
import FlowAudit.Config.Reader
import FlowAudit.Files.Tree

namespace FlowAudit

/-- What a place gives for a setting. -/
inductive Given where
  | value (s : Setting)
  | default
  /-- Not even the default counts. -/
  | nothing

/-- What the environment and the file hold. -/
structure Settings where
  environment : Environment := []
  entries : Setting.Entries := []

namespace Settings

def variableName (key : String) : String :=
  "FLOWSCOPE_" ++ String.ofList (key.toList.map fun c => if c == '.' then '_' else c.toUpper)

def fromEnvironment? (s : Settings) (key : String) : Option String :=
  (s.environment.get? (variableName key)).filter (· != "")

def top (s : Settings) (key : String) : Given :=
  match s.fromEnvironment? key with
  | some v => .value (.text v)
  | none => ((Setting.value? s.entries key).map Given.value).getD .default

/-- A setting of a group; its key may stand at the top with a point in it. A variable with the name of
the group hides what is in the group. -/
def member (s : Settings) (group key : String) : Given :=
  let whole := group ++ "." ++ key
  match s.fromEnvironment? whole with
  | some v => .value (.text v)
  | none =>
    if (s.fromEnvironment? group).isSome then .nothing
    else match Setting.value? s.entries whole, Setting.value? s.entries group with
      | some v, _ => .value v
      | none, some (.group entries) => ((Setting.value? entries key).map Given.value).getD .default
      | none, _ => .default

/-- The settings of a group. A group that is null has the defaults, whatever the environment says. -/
def group (s : Settings) (name : String) : Except Failure (String → Given) :=
  match s.entries.find? (·.1 == name) with
  | none | some (_, .group _) => .ok (s.member name)
  | some (_, .missing) =>
    if (s.fromEnvironment? name).isSome then .error misfit else .ok fun _ => .default
  | some _ => .error misfit
where
  misfit : Failure := .plain ("'" ++ name ++ "' expected a map")

end Settings

def Given.read {α : Type} (convert : Setting → Option α) (zero default : α) (key : String) :
    Given → Except Failure α
  | .nothing => .ok zero
  | .default => .ok default
  | .value s =>
    match convert s with
    | some a => .ok a
    | none => .error (.plain ("cannot convert '" ++ key ++ "'"))

namespace Config

def defaults : Config where
  flowsDir := "flows"
  source := "dir"
  log := { level := "info", format := "text" }
  analysis := { maxDepth := 10, workers := 4 }
  store := { driver := "postgres", port := 5432, sslMode := "prefer" }
  serve := { addr := ":8080" }
  doctor := { staleAfter := 168 * 3600000000000 }

def keys : List String :=
  let group (name : String) (keys : List String) := name :: keys.map fun k => name ++ "." ++ k
  ["flows_dir", "source"] ++ group "log" ["level", "format"] ++
    group "analysis" ["max_depth", "workers", "alternate_passes", "exclude_exit_edges"] ++
    group "store" ["driver", "url", "host", "port", "name", "user", "password", "sslmode"] ++
    group "serve" ["addr"] ++ group "doctor" ["verbose", "stale_after"]

def ofSettings (s : Settings) : Except Failure Config := do
  let text (place : String → Given) (key : String) (default : String) :=
    (place key).read Setting.toText? "" default key
  let whole (place : String → Given) (key : String) (default : Int) :=
    (place key).read Setting.toWhole? 0 default key
  let flag (place : String → Given) (key : String) (default : Bool) :=
    (place key).read Setting.toFlag? false default key
  let d := defaults
  let log ← s.group "log"
  let analysis ← s.group "analysis"
  let store ← s.group "store"
  let serve ← s.group "serve"
  let doctor ← s.group "doctor"
  return {
    flowsDir := ← text s.top "flows_dir" d.flowsDir
    source := ← text s.top "source" d.source
    log := {
      level := ← text log "level" d.log.level
      format := ← text log "format" d.log.format }
    analysis := {
      maxDepth := ← whole analysis "max_depth" d.analysis.maxDepth
      workers := ← whole analysis "workers" d.analysis.workers
      alternatePasses := ← flag analysis "alternate_passes" d.analysis.alternatePasses
      excludeExitEdges := ← flag analysis "exclude_exit_edges" d.analysis.excludeExitEdges }
    store := {
      driver := ← text store "driver" d.store.driver
      url := ← text store "url" d.store.url
      host := ← text store "host" d.store.host
      port := ← whole store "port" d.store.port
      name := ← text store "name" d.store.name
      user := ← text store "user" d.store.user
      password := ← text store "password" d.store.password
      sslMode := ← text store "sslmode" d.store.sslMode }
    serve := { addr := ← text serve "addr" d.serve.addr }
    doctor := {
      verbose := ← flag doctor "verbose" d.doctor.verbose
      staleAfter := ←
        (doctor "stale_after").read Setting.toDuration? 0 d.doctor.staleAfter "stale_after" } }

def maxClimb : Nat := 25

/-- The file of settings in the directory or in one above it, up to the root of a repository. -/
def discover (t : Files.Tree) (fuel : Nat) (dir : String) : String :=
  match fuel with
  | 0 => ""
  | fuel + 1 =>
    match ["flowscope.yaml", "flowscope.yml"].find? fun name => t.exists? (Path.join dir name) with
    | some name => Path.join dir name
    | none =>
      if t.exists? (Path.join dir ".git") || Path.dir dir == dir then ""
      else discover t fuel (Path.dir dir)

def filePath (t : Files.Tree) (explicit : String) : Except Failure String :=
  if explicit == "" then .ok (discover t maxClimb t.workingPath)
  else if t.exists? explicit then .ok explicit
  else .error (.plain ("config file not found: " ++ explicit))

def variablesOf (t : Files.Tree) (path : String) : Except Failure Environment :=
  let fail (text : String) : Failure := .within ("loading " ++ path) (.plain text)
  match t.read path with
  | .error e => if e.reason = .missing then .ok [] else .error (fail e.message)
  | .ok bytes => (Environment.parse bytes).mapError fun e => fail e.message

def entriesOf (t : Files.Tree) (path : String) : Except Failure Setting.Entries :=
  if path == "" then .ok []
  else
    let fail (text : String) : Failure := .within "reading config file" (.plain text)
    match t.read path with
    | .error e => .error (fail e.message)
    | .ok bytes => (Setting.ofFile path bytes).mapError fun e => fail e.message

def load (t : Files.Tree) (environment : Environment) (explicit : String) :
    Except Failure (Config × String) := do
  let path ← filePath t explicit
  let dir := if path == "" then "." else Path.dir path
  let more ← variablesOf t (Path.join dir ".env")
  let entries ← entriesOf t path
  let c ← (ofSettings { environment := environment.extend more, entries := entries }).mapError
    (.within "unmarshaling config")
  c.validate
  return (c, path)

end Config

end FlowAudit
