import FlowAudit.Command.Session
import FlowAudit.Config.ToJson
import FlowAudit.Health.Doctor
import FlowAudit.Render.Structured
import FlowAudit.Text.Columns

namespace FlowAudit.Command

def runRow (r : Record) : List String := [
  r.flow,
  Text.decimalInt r.flowVersion,
  Text.decimalInt r.score,
  if r.shouldBulkify then "yes" else "no",
  Text.decimalInt r.cumulativeComplexity,
  r.createdAt.secondsText]

def runTable (records : List Record) : String :=
  let rows := ["FLOW", "VERSION", "SCORE", "BULKIFY", "COMPLEXITY", "RECORDED"] :: records.map runRow
  Text.Columns.align (String.join (rows.map fun row => "\t".intercalate row ++ "\n"))

namespace Program

def status : Program Unit := do
  let h ← openDatabase (← text "db")
  let s ← lift (.exitWith .general "getting status")
    (← h.withStore fun store => (store.status false, store))
  if !s.tableExists then
    printLine "Runs table:   missing\n"
    printLine "No analysis has been recorded yet."
    printLine "Run 'flowscope analyze <flow> --store' to record one."
  else
    printLine "Runs table:   present"
    printLine ("Runs:         " ++ Text.decimal s.runs)
    printLine ("Flows:        " ++ Text.decimal s.flows)
    if let some t := s.lastRunAt then
      printLine ("Last run:     " ++ t.secondsText)
    let limit := (← get).arguments.whole "limit"
    if s.runs != 0 && 0 < limit then
      let records ← lift (.exitWith .general "listing runs")
        (← h.withStore fun store => (store.list false limit, store))
      printLine ""
      print (runTable records)

def doctor : Program Unit := do
  let c := (← get).config
  let db ← text "db"
  let verbose := (← switch "verbose") || c.doctor.verbose
  let source ← openSource (← text "dir") db
  let store ←
    if db != "" || c.hasStore then do
      let h ← openDatabase db
      h.withStore fun store => (some store, store)
    else pure none
  unlessQuiet (printLine "flowscope doctor - Health Check")
  let d : Health.Doctor := { source := source, store := store, now := (← get).now }
  let d := if 0 < c.doctor.staleAfter then { d with staleAfter := c.doctor.staleAfter } else d
  let report ← lift (.exitWith .general "running doctor") (d.run []).1
  print (report.toText verbose)
  if report.hasErrors then throw (.exit .general "health checks failed")

def configSummary (c : Config) (path : String) : List String :=
  let source :=
    if c.readsDatabase then "sql (table " ++ Database.definitionsTable ++ ")"
    else "dir " ++ c.flowsDir
  let store := match c.dialect with
    | .error e => "invalid (" ++ e.message ++ ")"
    | .ok d =>
      d.name ++ " " ++
        if !c.hasStore then "(not configured)"
        else match c.redacted.dsn with
          | .error e => "(incomplete: " ++ e.message ++ ")"
          | .ok dsn => dsn ++ " (table " ++ Database.runsTable ++ ")"
  ["Config file:  " ++ (if path == "" then "(none, using defaults)" else path),
    "Flow source:  " ++ source,
    "Run store:    " ++ store,
    ""]

def showConfig : Program Unit := do
  let format ← text "format"
  lift id (Render.checkFormat format ["yaml", "json"])
  let s ← get
  if ← switch "source" then
    for line in configSummary s.config s.configPath do
      printLine line
  print (← lift id (Render.structured format s.config.redacted.toJson))

end Program

end FlowAudit.Command
