import FlowAudit.Analysis.Single
import FlowAudit.Document.Parse
import FlowAudit.Health.Report
import FlowAudit.Source.Basic
import FlowAudit.Store.Basic

namespace FlowAudit.Health

/-- What is checked. -/
structure Doctor where
  source : Source
  store : Option Store := none
  /-- Whether nobody waits for answers any more once the source is listed. -/
  isCanceled : Bool := false
  /-- The age in nanoseconds after which an analysis is stale, if positive. -/
  staleAfter : Int := 7 * 24 * 3600 * 1000000000
  now : Time

/-- A definition that was read. -/
structure Patient where
  name : String
  metadata : Metadata
  version : Version

/-- What was found out about the source. -/
structure Survey where
  report : Report := {}
  names : List String := []
  patients : List Patient := []

def plural (items : List String) (rest : String) : String := Text.decimal items.length ++ rest

def checkNone (category name : String) (items : List String) (bad good hint : String) : Check :=
  if items.isEmpty then { category, name, status := .pass, message := good }
  else
    { category, name, status := .warn, message := plural items bad, details := "\n".intercalate items
      hint }

/-- The first place between two at which a name, or one after it, stands in an ascending list. -/
def placeOf (names : Array String) (name : String) (low high : Nat) : Nat :=
  if low < high then
    let middle := (low + high) / 2
    if names[middle]?.any (· < name) then placeOf names name (middle + 1) high
    else placeOf names name low middle
  else low
termination_by high - low

def isKnown (names : Array String) (name : String) : Bool :=
  names[placeOf names name 0 names.size]? == some name

namespace Doctor

variable (d : Doctor)

def sourceCategory : String := "Flow Source"

def examine (name : String) : Except String Patient :=
  let told (e : Failure) := name ++ ": " ++ e.message
  match d.source.fetch name with
  | .error e => .error (told e)
  | .ok raw =>
    match Metadata.ofDefinition raw with
    | .error e => .error (told (.malformed e))
    | .ok md => .ok { name, metadata := md, version := raw.version }

def listable (status : Status) (message : String) (details hint : String := "") : Check :=
  { category := sourceCategory, name := "listable", status, message, details, hint }

/-- The names of all flows; those of an earlier survey, if none are listed. -/
def namesAfter (known : List String) : List String :=
  match d.source.list? with
  | some (.ok (name :: names)) => name :: names
  | _ => known

def checkSource (known : List String) : Except Failure Survey := do
  let names := d.namesAfter known
  match d.source.list? with
  | none => return {
      names
      report := ⟨[listable .warn "Flow source cannot enumerate definitions" ""
        "Use the dir or sql source to enable workspace checks"]⟩ }
  | some (.error e) => return {
      names
      report := ⟨[listable .fail "Flow source is not readable" e.message
        "Check flows_dir or the store connection settings"]⟩ }
  | some (.ok []) => return {
      names
      report := ⟨[listable .warn "Flow source contains no definitions" ""
        "Add .flow-meta.xml, .json or .yaml files to the flows directory"]⟩ }
  | some (.ok (_ :: _)) =>
    -- asked before each definition, and the first time is enough
    if d.isCanceled then throw (.bare .canceled)
    let results := names.map d.examine
    let failures := results.filterMap fun r => match r with
      | .error e => some e
      | .ok _ => none
    let parse : Check := if failures.isEmpty then
        { category := sourceCategory, name := "parse", status := .pass
          message := "All definitions parse" }
      else
        { category := sourceCategory, name := "parse", status := .fail
          message := plural failures (" of " ++ Text.decimal names.length ++
            " definitions cannot be parsed")
          details := "\n".intercalate failures
          hint := "Run 'flowscope validate <flow>' for the full error" }
    return {
      names
      patients := results.filterMap Except.toOption
      report := ⟨[listable .pass ("Flow source lists " ++ Text.decimal names.length ++ " definitions"),
        parse]⟩ }

def checkReferences (s : Survey) : Survey :=
  if s.patients.isEmpty then s
  else
    let graphs := s.patients.map fun p => (p.name, Graph.build p.metadata)
    let dangling := graphs.flatMap fun (name, g) =>
      g.dangling.map fun x => name ++ ": " ++ x.origin ++ " -> " ++ x.target
    let known := s.names.toArray
    let unresolved := graphs.flatMap fun (name, g) =>
      ((Call.all g {}).filter fun c => !isKnown known c.flow).map fun c =>
        name ++ ": " ++ c.element ++ " calls " ++ c.flow
    let connectors := checkNone "References" "connectors" dangling
      " connector(s) target missing elements" "All connectors resolve"
      "Remove or retarget the connectors; analysis ignores them"
    let subflows := checkNone "References" "subflows" unresolved
      " sub-workflow call(s) cannot be resolved" "All sub-workflow calls resolve"
      "Add the called flows to the source; they are excluded from cumulative metrics"
    { s with report := (s.report.add connectors).add subflows }

def storeCategory : String := "Run Store"

def storeCheck (name : String) (status : Status) (message : String) (details hint : String := "") :
    Check :=
  { category := storeCategory, name, status, message, details, hint }

/-- Why the last analysis of a flow is stale. A flow that was not read counts as never modified. -/
def staleness? (s : Survey) (name : String) (last : Record) : Option String :=
  let modified := ((s.patients.find? (·.name == name)).map (·.version.lastModified)).getD .zero
  if 0 < d.staleAfter && d.staleAfter < d.now.since last.createdAt then
    some (name ++ ": analyzed " ++ last.createdAt.secondsText)
  else if last.createdAt.before modified then
    some (name ++ ": modified after last analysis")
  else none

def checkRuns (s : Survey) (store : Store) : Except Failure Survey := do
  let lasts ← s.names.mapM fun name => do
    let last ← (store.last d.isCanceled name).mapError
      (.within ("getting last run for " ++ name))
    return (name, last)
  let missing := lasts.filterMap fun (name, last) => if last.isNone then some name else none
  let stale := lasts.filterMap fun (name, last) => last.bind (d.staleness? s name)
  let coverage := checkNone storeCategory "coverage" missing " flow(s) have never been analyzed"
    "Every flow has a stored analysis" "Run 'flowscope analyze <flow> --store'"
  let freshness := checkNone storeCategory "freshness" stale " stored analys(es) are stale"
    "Stored analyses are fresh" "Re-run 'flowscope analyze <flow> --store'"
  return { s with report := (s.report.add coverage).add freshness }

def checkStore (s : Survey) : Except Failure Survey :=
  let one (c : Check) : Except Failure Survey := .ok { s with report := s.report.add c }
  match d.store with
  | none =>
    one (storeCheck "configured" .warn "No run store configured" ""
      "Set store.url (or store.host) to record analyses")
  | some store =>
    match store.status d.isCanceled with
    | .error e =>
      one (storeCheck "reachable" .fail "Run store is not reachable" e.message
        "Check the store connection settings")
    | .ok status =>
      if !status.tableExists then
        one (storeCheck "table_exists" .warn (Database.runsTable ++ " table does not exist") ""
          "Run 'flowscope analyze <flow> --store' to create it")
      else
        let s := { s with report := s.report.add (storeCheck "table_exists" .pass
          (Database.runsTable ++ " table exists (" ++ Text.decimal status.runs ++ " runs, " ++
            Text.decimal status.flows ++ " flows)")) }
        if s.names.isEmpty then .ok s else d.checkRuns s store

/-- Makes all checks. The names are those that an earlier run found; the run gives back those that it
knows of. -/
def run (known : List String) : Except Failure Report × List String :=
  let report : Except Failure Report := do
    let s ← (d.checkSource known).mapError (.within "checking flow source")
    let done ← (d.checkStore (checkReferences s)).mapError (.within "checking run store")
    return done.report
  (report, d.namesAfter known)

end Doctor

end FlowAudit.Health
