import FlowAudit.Database.Dialect
import FlowAudit.Web.Url

namespace FlowAudit

structure LogConfig where
  level : String := ""
  format : String := ""
  deriving Inhabited, Repr, DecidableEq

structure AnalysisConfig where
  maxDepth : Int := 0
  workers : Int := 0
  alternatePasses : Bool := false
  excludeExitEdges : Bool := false
  deriving Inhabited, Repr, DecidableEq

structure StoreConfig where
  driver : String := ""
  url : String := ""
  host : String := ""
  port : Int := 0
  name : String := ""
  user : String := ""
  password : String := ""
  sslMode : String := ""
  deriving Inhabited, Repr, DecidableEq

structure ServeConfig where
  addr : String := ""
  deriving Inhabited, Repr, DecidableEq

structure DoctorConfig where
  verbose : Bool := false
  /-- The age in nanoseconds from which a run is stale. -/
  staleAfter : Int := 0
  deriving Inhabited, Repr, DecidableEq

structure Config where
  flowsDir : String := ""
  source : String := ""
  log : LogConfig := {}
  analysis : AnalysisConfig := {}
  store : StoreConfig := {}
  serve : ServeConfig := {}
  doctor : DoctorConfig := {}
  deriving Inhabited, Repr, DecidableEq

namespace Config

def dialect (c : Config) : Except Failure Dialect := Dialect.ofDriver c.store.driver

def readsDatabase (c : Config) : Bool := c.source == "sql"

def validate (c : Config) : Except Failure Unit := do
  if c.source != "dir" && c.source != "sql" then
    throw (.plain ("source must be \"dir\" or \"sql\", got " ++ Text.quote c.source))
  let _ ← c.dialect
  if c.analysis.maxDepth < 1 then
    throw (.plain ("analysis.max_depth must be at least 1, got " ++
      Text.decimalInt c.analysis.maxDepth))

def hasStore (c : Config) : Bool := c.store.url != "" || c.store.host != ""

def flowsDirOr (c : Config) (dir : String) : String := if dir != "" then dir else c.flowsDir

def serverUrl (s : StoreConfig) : Web.Url where
  scheme := "postgres"
  user := some {
    name := Text.Utf8.encode s.user.toList
    password := if s.password == "" then none else some (Text.Utf8.encode s.password.toList) }
  host := Text.Utf8.encode (s.host ++ ":" ++ Text.decimalInt s.port).toList
  path := '/' :: Web.Percent.escape .path (Text.Utf8.encode s.name.toList)
  query :=
    if s.sslMode == "" then []
    else ("sslmode=" ++ Web.Percent.escapeText .query s.sslMode).toList

/-- Where the store is: the URL when there is one, and else the parts put together. -/
def dsn (c : Config) : Except Failure String := do
  let s := c.store
  let missing (name : String) : Failure :=
    .plain ("store." ++ name ++ " is required when store.url is not set")
  if s.url != "" then return s.url
  match c.dialect with
  | .ok .sqlite => throw (.plain "store.url is required for the sqlite driver")
  | _ => pure ()
  if s.host == "" then throw (missing "host")
  if s.name == "" then throw (missing "name")
  if s.user == "" then throw (missing "user")
  return (serverUrl s).text

def mask : String := "********"

def redactUrl (s : String) : String :=
  match Web.Url.parse? s with
  | some u =>
    match u.user with
    | some { name, password := some _ } =>
      ({ u with user := some ⟨name, some (Text.Utf8.encode mask.toList)⟩ } : Web.Url).text
    | _ => s
  | none => s

def redacted (c : Config) : Config :=
  { c with store := { c.store with
    password := if c.store.password == "" then "" else mask
    url := redactUrl c.store.url } }

end Config

end FlowAudit
