import FlowAudit.Analysis.OfJson
import FlowAudit.Analysis.ToJson
import FlowAudit.Database.Engine
import FlowAudit.Json.Printer
import FlowAudit.Json.Reader
import FlowAudit.Store.Uuid

namespace FlowAudit

def analyzerVersion : String := "1"

/-- A run with its analysis. -/
structure Record where
  id : String
  flow : String
  flowVersion : Int
  checksum : String
  analyzerVersion : String
  score : Int
  shouldBulkify : Bool
  cumulativeComplexity : Int
  analysis : Analysis
  createdAt : Time
  deriving Inhabited

namespace Record

def toRun (r : Record) : Run :=
  { id := r.id, flow := r.flow, flowVersion := r.flowVersion, checksum := r.checksum
    analyzerVersion := r.analyzerVersion, score := r.score, shouldBulkify := r.shouldBulkify
    cumulativeComplexity := r.cumulativeComplexity, result := r.analysis.toJson.compact
    createdAt := r.createdAt }

def ofAnalysis (id checksum : String) (now : Time) (a : Analysis) : Record :=
  let f := a.findings
  { id := id, flow := f.name, flowVersion := (f.version.map (·.version)).getD 0
    checksum := checksum, analyzerVersion := FlowAudit.analyzerVersion, score := f.score
    shouldBulkify := f.shouldBulkify, cumulativeComplexity := f.cumulativeComplexity, analysis := a
    createdAt := now }

def decode (result : String) : Except String Analysis := do
  let j ← (Json.parseText result).mapError Json.SyntaxError.message
  (Analysis.ofJson j).mapError Json.Mismatch.message

def ofRun (e : Engine) (r : Run) : Except Failure Record := do
  let created ← e.readTime 9 "created_at" r.createdAt
  match Uuid.normalize? r.id with
  | none =>
    throw (.within ("parsing run id " ++ Text.quote r.id) (.plain "not the identifier of a run"))
  | some id =>
    let a ← (decode r.result).mapError fun e =>
      Failure.within ("decoding run " ++ r.id) (.plain e)
    return {
      id := id, flow := r.flow, flowVersion := r.flowVersion, checksum := r.checksum
      analyzerVersion := r.analyzerVersion, score := r.score, shouldBulkify := r.shouldBulkify
      cumulativeComplexity := r.cumulativeComplexity, analysis := a, createdAt := created }

def toJson (r : Record) : Json :=
  .obj [("id", .str r.id), ("flow", .str r.flow), ("flow_version", Json.ofInt r.flowVersion),
    ("checksum", .str r.checksum), ("analyzer_version", .str r.analyzerVersion),
    ("bulkification_score", Json.ofInt r.score), ("should_bulkify", .bool r.shouldBulkify),
    ("cumulative_complexity", Json.ofInt r.cumulativeComplexity), ("analysis", r.analysis.toJson),
    ("created_at", Json.ofTime r.createdAt)]

end Record

/-- The state of a store in brief. -/
structure StoreStatus where
  tableExists : Bool
  runs : Nat := 0
  flows : Nat := 0
  lastRunAt : Option Time := none
  deriving Inhabited, Repr, DecidableEq

def StoreStatus.toJson (s : StoreStatus) : Json :=
  .obj ([("table_exists", .bool s.tableExists), ("runs", Json.ofNat s.runs),
    ("flows", Json.ofNat s.flows)] ++
    (s.lastRunAt.map fun t => ("last_run_at", Json.ofTime t)).toList)

structure Store where
  database : Database := {}
  engine : Engine := .sqlite
  dialect : Dialect := .sqlite
  /-- The database as it was before the transaction that all work is part of, if one was begun. -/
  begun : Option Database := none
  /-- The number of identifiers given out. -/
  issued : Nat := 0
  deriving Inhabited

namespace Store

variable (s : Store) (isCanceled : Bool)

def shouldSkip (last : Option Record) (checksum : String) : Bool :=
  last.any fun r => r.checksum == checksum && r.analyzerVersion == analyzerVersion

def rows : List Run := s.database.runs.getD []

/-- What keeps a statement from being carried out though the tables can be accessed. -/
def obstacle? (faults : Faults) (st : Statement) : Option Failure :=
  s.engine.refuse? s.dialect st <|> faults st

def attempt (faults : Faults) (st : Statement) : Except Failure Unit :=
  match s.database.access isCanceled, s.obstacle? faults st with
  | .ok _, none => .ok ()
  | .error e, _ | .ok _, some e => .error (.within st.task e)

def tableExists (faults : Faults := .none) : Except Failure Bool := do
  s.attempt isCanceled faults .findTable
  return s.database.runs.isSome

def tabled : Store := { s with database.runs := some s.rows }

/-- Makes the table of runs and its index, if there are none. A table stays even if its index is refused. -/
def ensureSchema (faults : Faults := .none) : Except Failure Unit × Store :=
  match s.attempt isCanceled faults .makeTable with
  | .error e => (.error e, s)
  | .ok _ => (s.tabled.attempt isCanceled faults .makeIndex, s.tabled)

def last (flow : String) (faults : Faults := .none) : Except Failure (Option Record) := do
  if !(← s.tableExists isCanceled faults) then return none
  s.attempt isCanceled faults .findLatest
  match (s.engine.latestFirst (s.rows.filter (·.flow == flow))).head? with
  | none => return none
  | some r => return some (← (Record.ofRun s.engine r).mapError (.within Statement.findLatest.task))

def list (limit : Int) : Except Failure (List Record) := do
  if !(← s.tableExists isCanceled) then return []
  let runs := s.engine.latestFirst s.rows
  let runs := if 0 < limit then runs.take limit.toNat else runs
  runs.mapM fun r => (Record.ofRun s.engine r).mapError (.within "scanning run")

def status : Except Failure StoreStatus := do
  if !(← s.tableExists isCanceled) then return { tableExists := false }
  match s.engine.newest? s.rows with
  | none => return { tableExists := true }
  | some r =>
    let at_ ← (s.engine.readTime 0 "created_at" r.createdAt).mapError (.within "querying last run time")
    return {
      tableExists := true, runs := s.rows.length
      flows := (Table.ofList (s.rows.map fun r => (r.flow, ()))).length, lastRunAt := some at_ }

def insertRun (r : Run) : Except Failure Store := do
  s.database.access isCanceled
  let runs ← s.database.needRuns
  if runs.any (·.id == r.id) then throw s.engine.duplicate
  return { s with database := { s.database with runs := some (runs ++ [r]) } }

structure SaveOptions where
  /-- Only tells what would be done. -/
  isDryRun : Bool := false
  /-- Records the run even if nothing has changed. -/
  isForced : Bool := false
  deriving Inhabited, Repr, DecidableEq

/-- What came of saving a run. -/
inductive Saved where
  | skipped (last : Record)
  | recorded (r : Record)
  | planned (r : Record)
  deriving Inhabited

def Saved.isSkipped : Saved → Bool
  | skipped _ => true
  | _ => false

def Saved.record : Saved → Record
  | skipped r | recorded r | planned r => r

/-- Adds the row of a record after making the table for it, which stays even if the row is refused. -/
def addRecord (faults : Faults) (r : Record) : Except Failure Unit × Store :=
  match s.ensureSchema isCanceled faults with
  | (.error e, made) => (.error e, made)
  | (.ok _, made) =>
    match made.attempt isCanceled faults .addRow with
    | .error e => (.error e, made)
    | .ok _ =>
      match made.insertRun isCanceled r.toRun with
      | .error e => (.error (.within Statement.addRow.task e), made)
      | .ok after => (.ok (), after)

/-- Writes a record with the table it needs: as part of the transaction that was begun before, or in
one of its own, which is undone if anything of it fails. -/
def write (faults : Faults) (r : Record) : Except Failure Unit × Store :=
  -- a transaction that was begun before is the caller's to take back
  if s.begun.isSome then s.addRecord isCanceled faults r
  else
    match s.attempt isCanceled faults .begin with
    | .error e => (.error e, s)
    | .ok _ =>
      match s.addRecord isCanceled faults r with
      | (.error e, _) => (.error e, s)
      | (.ok _, after) =>
        match after.attempt isCanceled faults .commit with
        | .error e => (.error e, s)
        | .ok _ => (.ok (), after)

def needless? (faults : Faults) (a : Analysis) (checksum : String) : Except Failure (Option Record) := do
  let last ← (s.last isCanceled a.name faults).mapError (.within "checking last run")
  return if shouldSkip last checksum then last else none

/-- Saves the analysis of a flow. Identifiers are taken from `idOf` in turn. -/
def save (idOf : Nat → String) (now : Time) (a : Option Analysis) (checksum : String)
    (opts : SaveOptions) (faults : Faults := .none) : Except Failure Saved × Store :=
  match a with
  | none => (.error (.plain "store: nil analysis"), s)
  | some a =>
    let build (s : Store) := Record.ofAnalysis (idOf s.issued) checksum now a
    let issue (s : Store) : Store := { s with issued := s.issued + 1 }
    -- a trial asks nothing of the database
    let asks := !opts.isForced && !opts.isDryRun
    match if asks then s.needless? isCanceled faults a checksum else .ok none, a.unwritable? with
    | .error e, _ => (.error e, s)
    | .ok (some last), _ => (.ok (.skipped last), s)
    | .ok none, some e => (.error (.within "encoding analysis" (.plain e)), s)
    | .ok none, none =>
      if opts.isDryRun then (.ok (.planned (build s)), issue s)
      else
        match s.write isCanceled faults (build s) with
        | (.ok _, after) => (.ok (.recorded (build s)), issue after)
        | (.error e, after) => (.error e, issue after)

end Store

end FlowAudit
