import FlowAudit.Command.Session
import FlowAudit.Render.Analysis
import FlowAudit.Render.Graph
import FlowAudit.Store.Statements
import FlowAudit.Web.Address

namespace FlowAudit.Command

/-- A service with the address to serve on. -/
structure Serving where
  address : Web.Address
  /-- The key of the database of the store, if there is one. -/
  database : Option String
  service : Service

namespace Program

def recordRun (d : Definition) (a : Analysis) (db : String) : Program Unit := do
  let h ← openDatabase db
  let s ← get
  let opts : Store.SaveOptions := { isForced := s.arguments.switch "force" }
  let saved ← h.withStore fun store =>
    store.save false s.idOf s.now (some a) (Fingerprint.compute d.content (some a)) opts
  let saved ← lift (.exitWith .general "recording run") saved
  unlessQuiet <| note <|
    if saved.isSkipped then
      "Flow unchanged since run " ++ saved.record.id ++
        ", not recorded. Use --force to record anyway."
    else "Recorded run " ++ saved.record.id ++ "."

def planRun (d : Definition) (a : Analysis) : Program Unit := do
  let s ← get
  let _ ← lift configFailure s.config.dialect
  unlessQuiet (note "-- Dry-run mode: SQL will be output but not applied\n")
  modify fun s => { s with issued := s.issued + 1 }
  let checksum := Fingerprint.compute d.content (some a)
  print (Store.plan (.ofAnalysis (s.idOf s.issued) checksum s.now a))

def analyze (name : String) : Program Unit := do
  let format ← text "format"
  lift id (Render.checkFormat format ["text", "json", "yaml"])
  let db ← text "db"
  let source ← openSource (← text "dir") db
  let d ← lift (.ofAnalysis "fetching flow") (source.fetch name)
  let (opts, workers) ← analysisOptions
  log [{ level := .debug, message := "analyzing", attributes := [
    ("flow", .text d.name), ("origin", .text d.origin), ("max_depth", .whole opts.maxDepth),
    ("workers", .whole workers)] }]
  let (outcome, resolver) := (Resolve.analyzeDefinition source opts d).run {}
  log resolver.log.reverse
  let a := Resolve.recommended (← lift (.ofAnalysis "analyzing flow") outcome)
  if ← switch "dry-run" then planRun d a
  else
    if ← switch "store" then recordRun d a db
    unlessQuiet do print (← lift (.exitWith .general "writing output") (a.render format))
  if (← switch "check") && a.findings.shouldBulkify then
    throw (.exit .general (a.name ++ " needs bulkification"))

def validateOne (d : Definition) : Except Failure (List String) := do
  let md ← (Metadata.ofDefinition d).mapError .malformed
  let g := Graph.build md
  let calls := g.elements.filterMap Element.calledFlow?
  return ("✓ " ++ md.name ++ " (" ++ Text.decimal g.elements.length ++ " elements, " ++
    Text.decimal calls.length ++ " sub-workflow calls)") :: g.warnings.map ("    warning: " ++ ·)

def validateAll (source : Source) : List String → Program Unit
  | [] => return ()
  | name :: rest => do
    match source.fetch name >>= validateOne with
    | .ok lines =>
      unlessQuiet do
        for line in lines do printLine line
      validateAll source rest
    | .error e =>
      printLine ("✗ " ++ name ++ ": " ++ e.message)
      tryCatch (validateAll source rest) fun _ => return ()
      throw (.ofAnalysis ("validating " ++ name) e)

def validate (words : List String) : Program Unit := do
  let source ← openSource (← text "dir") (← text "db")
  let names ←
    if !words.isEmpty then pure words
    else match source.list? with
      | none => throw (.exit .config "source cannot list flows; name them explicitly")
      | some names => lift (.exitWith .general "listing flows") names
  validateAll source names

def graph (name : String) : Program Unit := do
  let format ← text "format"
  lift id (Render.checkFormat format ["text", "dot", "json", "yaml"])
  let source ← openSource (← text "dir") (← text "db")
  let d ← lift (.ofAnalysis "fetching flow") (source.fetch name)
  let md ← lift (.ofAnalysis "parsing flow") ((Metadata.ofDefinition d).mapError .malformed)
  let (opts, _) ← analysisOptions
  let g := Graph.build md
  let view := GraphView.ofGraph md.name g (Loops.propagate g opts.loops)
  print (← lift (.exitWith .general "writing output") (view.render format))

def importOne (source : Source) (h : Handle) (name : String) : Program Unit := do
  let d ← lift (.ofAnalysis "reading flow") (source.fetch name)
  let _ ← lift (.exitWith .malformed ("parsing " ++ name))
    ((Metadata.ofDefinition d).mapError .malformed)
  h.update (← lift (.exitWith .general "importing flow")
    ((← h.database).putDefinition false (← get).now d))
  unlessQuiet (printLine ("Imported " ++ d.name ++ " (" ++ d.format ++ ")"))

def importFlows (words : List String) : Program Unit := do
  let s ← get
  let source := { tree := s.files, path := s.config.flowsDirOr (← text "dir") : Directory }.source
  let names ←
    if !words.isEmpty then pure words
    else lift (.exitWith .general "listing flows") (source.list?.getD (.ok []))
  let h ← openDatabase (← text "db")
  h.update (← lift (.exitWith .general "creating definitions table")
    ((← h.database).ensureDefinitions false))
  for name in names do
    importOne source h name

def serve : Program Serving := do
  let c := (← get).config
  let db ← text "db"
  let source ← openSource (← text "dir") db
  let handle? ←
    if db != "" || c.hasStore then do
      let h ← openDatabase db
      let made ← h.withStore fun store => store.ensureSchema false
      lift (.exitWith .general "creating runs table") made
      pure (some h)
    else pure none
  let store ← handle?.mapM fun h => h.withStore fun store => (store, store)
  let s ← get
  let named ← text "addr"
  let address := if named != "" then named else c.serve.addr
  log [{ level := .info, message := "serving", attributes := [("addr", .text address)] }]
  match Web.Address.parse address with
  | .error reason => throw (.exitWith .general "serving" (.plain reason))
  | .ok place =>
    return {
      address := place
      database := handle?.map (·.key)
      service := {
        source := source, options := (← analysisOptions).1, store := store, idOf := s.idOf } }

end Program

end FlowAudit.Command
