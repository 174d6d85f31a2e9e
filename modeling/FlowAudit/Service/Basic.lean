import FlowAudit.Analysis.ToJson
import FlowAudit.Fingerprint
import FlowAudit.Resolution.Resolver
import FlowAudit.Service.Route
import FlowAudit.Store.Basic

namespace FlowAudit

namespace Release

def number : String := "dev"

def commit : String := "none"

def date : String := "unknown"

def describe (toolchain : String) : String :=
  "flowscope " ++ number ++ " (commit: " ++ commit ++ ", built: " ++ date ++
    ", analyzer: v" ++ analyzerVersion ++ ") " ++ toolchain

end Release

structure Service where
  source : Source
  options : Resolver.Options := {}
  store : Option Store := none
  /-- Whether nobody waits for the answers of the store any more. -/
  isCanceled : Bool := false
  idOf : Nat → String

/-- The moments that a request is answered at. -/
structure Moment where
  /-- The time that runs are recorded with. -/
  recorded : Time
  /-- The time that posted definitions are of. -/
  posted : Time

def Resolver.statsToJson (r : Resolver) : Json := .obj [
  ("hits", Json.ofNat r.hits),
  ("misses", Json.ofNat r.misses),
  ("computations", Json.ofNat r.computations),
  ("entries", Json.ofNat r.entries.length)]

namespace Service

open Web (Request Response)

def maxBody : Nat := 8 * 1024 * 1024

def statusOf (e : Failure) : Nat :=
  if e.hasCause .notFound then 404
  else if e.hasCause .malformedInput then 422
  else if e.hasCause .canceled then 503
  else 500

def refuse (e : Failure) : Response := .failure (statusOf e) e.message

def noStore : Response := .failure 503 "no run store configured"

def answer (members : List (String × Json)) : Response :=
  { status := 200, body := .json (.obj members) }

/-- A response about an analysis. Nothing is sent of one that cannot be written. -/
def about (a : Analysis) (body : Json) : Response :=
  let isUnwritable := a.unwritable?.isSome || Json.maxNesting < body.filledNesting
  { status := 200, body := if isUnwritable then .text "" else .json body }

variable (s : Service)

def health : Response :=
  let members := [("status", Json.str "ok"), ("version", .str Release.number)]
  match s.store with
  | none => answer members
  | some store =>
    match store.status s.isCanceled with
    | .ok status => answer (members ++ [("store", status.toJson)])
    | .error e =>
      { status := 503
        body := .json (.obj [("status", .str "degraded"), ("error", .str e.message)]) }

def flows : Response :=
  match s.source.list? with
  | none => .failure 501 "source cannot list flows"
  | some (.error e) => refuse e
  | some (.ok names) => answer [("flows", Json.strings names)]

def analysis (flow : String) : Response :=
  let (o, r) := (Resolve.analyze s.source s.options flow).run {}
  match o with
  | .error e => refuse e
  | .ok a => about a (.obj [("analysis", (Resolve.recommended a).toJson), ("stats", r.statsToJson)])

def latestRun (flow : String) : Response :=
  match s.store with
  | none => noStore
  | some store =>
    match store.last s.isCanceled flow with
    | .error e => refuse e
    | .ok none => refuse (.notFound ("no recorded run for " ++ flow))
    | .ok (some record) => about record.analysis record.toJson

def formatOf (r : Request) : Except Response Format :=
  match (r.value? "format").getD "" with
  | "" => .ok .json
  | word =>
    match Format.ofWord? word with
    | some format => .ok format
    | none => .error (.failure 400 ("unknown format " ++ Text.quote word))

def record (m : Moment) (r : Request) (a : Analysis) : Response × Service :=
  match s.store with
  | none => (noStore, s)
  | some store =>
    let (saved, store) := store.save s.isCanceled s.idOf m.recorded (some a)
      (Fingerprint.compute r.body (some a)) { isForced := r.value? "force" == some "true" }
    let response := match saved with
      | .error e => refuse e
      | .ok saved => about a (.obj [
          ("analysis", a.toJson),
          ("run_id", .str saved.record.id),
          ("skipped", .bool saved.isSkipped)])
    (response, { s with store := some store })

def analyze (m : Moment) (r : Request) : Response × Service :=
  if maxBody < r.body.length then (.failure 413 "definition too large", s)
  else
    match formatOf r with
    | .error response => (response, s)
    | .ok format =>
      let d : Definition := {
        name := (r.value? "name").getD "Posted_Flow"
        format := format.name
        content := r.body
        version := { version := 1, lastModified := m.posted }
        origin := "request" }
      match ((Resolve.analyzeDefinition s.source s.options d).run {}).1 with
      | .error e => (refuse e, s)
      | .ok a =>
        let a := Resolve.recommended a
        if r.value? "store" == some "true" then s.record m r a
        else (about a (.obj [("analysis", a.toJson)]), s)

def handle (m : Moment) (r : Request) : Response × Service :=
  match r.path? with
  | none => ({ status := 400, body := .text "400 Bad Request" }, s)
  | some path =>
    match Route.ofPath? r.method path with
    | some .health => (s.health, s)
    | some .flows => (s.flows, s)
    | some (.analysis flow) => (s.analysis flow, s)
    | some (.latestRun flow) => (s.latestRun flow, s)
    | some .analyze => s.analyze m r
    | none =>
      match Route.withoutSlash? r.method path with
      | some shorter => (.redirect r shorter, s)
      | none => (.notFound, s)

end Service

end FlowAudit
