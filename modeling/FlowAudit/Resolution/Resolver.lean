import FlowAudit.Analysis.Single
import FlowAudit.Analysis.Split
import FlowAudit.Document.Parse
import FlowAudit.Log
import FlowAudit.Source.Basic

namespace FlowAudit

abbrev Outcome := Except Failure Analysis

structure Resolver where
  /-- The flows asked for with what came of it, the latest first; `none` while it is worked on. -/
  entries : List (String × Option Outcome) := []
  /-- The definitions fetched, the latest first. -/
  fetched : List (String × Except Failure Definition) := []
  /-- The flows that the source was asked for, the latest first. -/
  asked : List String := []
  /-- The number of times that an entry was there already. -/
  hits : Nat := 0
  /-- The number of times that it was not. -/
  misses : Nat := 0
  /-- The number of times that a flow was analyzed for its entry. -/
  computations : Nat := 0
  /-- What was logged, the latest first. -/
  log : List Log.Entry := []
  deriving Inhabited

namespace Resolver

structure Options where
  /-- The number of calls at which they are not followed any further. -/
  maxDepth : Nat := 10
  /-- The number of definitions that may be fetched at once. -/
  workers : Nat := 4
  loops : Loops.Options := {}
  deriving Inhabited, Repr, DecidableEq

/-- What a number stands for: the usual one, unless it is positive. -/
def orUsual (usual : Nat) (n : Int) : Nat := if 0 < n then n.toNat else usual

def limit (n : Int) : Nat := orUsual 10 n

def workerCount (n : Int) : Nat := orUsual 4 n

def find? (r : Resolver) (name : String) : Option (Option Outcome) :=
  (r.entries.find? (·.1 == name)).map (·.2)

def get? (r : Resolver) (name : String) : Option Analysis :=
  match r.find? name with
  | some (some (.ok a)) => some a
  | _ => none

def has (r : Resolver) (name : String) : Bool := (r.find? name).isSome

def enter (name : String) (r : Resolver) : Resolver :=
  { r with
    entries := (name, none) :: r.entries
    misses := r.misses + 1
    computations := r.computations + 1 }

def finish (name : String) (o : Outcome) (r : Resolver) : Resolver :=
  { r with entries := r.entries.map fun (n, e) => if n == name then (n, some o) else (n, e) }

end Resolver

abbrev Resolve := StateM Resolver

namespace Resolve

variable (src : Source) (opts : Resolver.Options)

def log (level : Log.Level) (message : String) (attributes : List (String × Log.Value)) :
    Resolve Unit :=
  modify fun r => { r with log := ⟨level, message, attributes⟩ :: r.log }

def askSource (name : String) : Resolve (Except Failure Definition) := do
  modify fun r => { r with asked := name :: r.asked }
  return src.fetch name

/-- The definition of a flow, from the source only the first time. -/
def fetch (name : String) : Resolve (Except Failure Definition) := do
  match (← get).fetched.find? (·.1 == name) with
  | some (_, d) => return d
  | none =>
    let d ← askSource src name
    modify fun r => { r with fetched := (name, d) :: r.fetched }
    return d

/-- Fetches flows that are called at the depth and have no entry yet, ahead of the calls. With a single
flow or a single worker nothing would be gained. -/
def prefetch (depth : Int) (names : List String) : Resolve Unit := do
  let r ← get
  let pending := names.filter fun name => !r.has name
  if depth < opts.maxDepth && 2 ≤ pending.length && 2 ≤ opts.workers then
    pending.forM fun name => discard (fetch src name)

abbrev Follow := String → Bool → Resolve Outcome

def addCalled (child : Analysis) : Analysis → Analysis
  | .node f children =>
    .node
      { f with
        cumulativeComplexity := wrap64 (f.cumulativeComplexity + child.findings.cumulativeComplexity)
        cumulativeDmlCount := wrap64 (f.cumulativeDmlCount + child.findings.cumulativeDmlCount)
        cumulativeSoqlCount := wrap64 (f.cumulativeSoqlCount + child.findings.cumulativeSoqlCount) }
      (children ++ [some child])

/-- Resolves a called flow for the analysis of its caller. One that fails is told of in a warning. -/
def callOne (follow : Follow) (a : Analysis) (name : String) (isInLoop : Bool) : Resolve Analysis := do
  let a := if isInLoop then
      a.mapFindings fun f => { f with subflowsInLoop := f.subflowsInLoop ++ [name] }
    else a
  match ← follow name isInLoop with
  | .ok child => return addCalled child a
  | .error e =>
    log .warn "sub-workflow excluded from analysis"
      [("flow", .text a.name), ("subflow", .text name), ("error", .text e.message)]
    return a.mapFindings fun f =>
      { f with warnings := f.warnings ++ ["sub-workflow " ++ name ++ " excluded: " ++ e.message] }

def analyzeWith (follow : Follow) (md : Metadata) (version : Option Version) (depth : Int) :
    Resolve Analysis := do
  let own := Single.analyze opts.loops md depth
  let calls := Call.flows own.calls
  prefetch src opts (depth + 1) (calls.map (·.1))
  calls.foldlM (fun a (name, isInLoop) => callOne follow a name isInLoop)
    (.node { own.findings with version := version } [])

def computeWith (follow : Follow) (name : String) (depth : Int) : Resolve Outcome := do
  match ← fetch src name with
  | .error e => return .error (.fetchFailed e)
  | .ok d =>
    match Metadata.ofDefinition d with
    | .error e => return .error (.fetchFailed (.within name (.malformed e)))
    | .ok md => return .ok (← analyzeWith src opts follow md (some d.version) depth)

/-- Resolves a called flow. `chain` holds the flows that are being analyzed, the outermost first, and
`left` is the number of calls that may be followed from here. -/
def resolve : (left : Nat) → (depth : Int) → (chain : List String) → Follow
  | 0, depth, _, name, _ => do
    log .debug "recursion limit reached" [("flow", .text name), ("depth", .whole depth)]
    return .ok (.depthExceeded name depth)
  | left + 1, depth, chain, name, isInLoop => do
    let compute := computeWith src opts (resolve left (depth + 1) (chain ++ [name])) name depth
    let attributes : List (String × Log.Value) :=
      [("flow", .text name), ("depth", .whole depth), ("in_loop", .flag isInLoop)]
    -- a flow that calls itself is analyzed anew at each level, until calls lie too deep
    if chain.contains name then
      log .debug "recursive sub-workflow reference" attributes
      compute
    else
      match (← get).find? name with
      | some (some o) =>
        modify fun r => { r with hits := r.hits + 1 }
        return o.map (·.mapFindings fun f => { f with isCached := true })
      | some none =>
        log .debug "sub-workflow in flight on a waiting resolution" attributes
        compute
      | none =>
        modify (Resolver.enter name)
        log .debug "resolving sub-workflow" attributes
        let o ← compute
        modify (Resolver.finish name o)
        return o

def resolveAt (depth : Int) (name : String) (isInLoop : Bool) : Resolve Outcome :=
  resolve src opts ((opts.maxDepth : Int) - depth).toNat depth [] name isInLoop

def analyzeMetadata (md : Metadata) (version : Option Version) : Resolve Analysis :=
  analyzeWith src opts (resolve src opts (opts.maxDepth - 1) 1 [md.name]) md version 0

def analyzeDefinition (d : Definition) : Resolve Outcome := do
  match Metadata.ofDefinition d with
  | .error e => return .error (.malformed e)
  | .ok md => return .ok (← analyzeMetadata src opts md (some d.version))

def analyze (name : String) : Resolve Outcome := do
  match ← fetch src name with
  | .error e => return .error (.within ("fetch " ++ name) e)
  | .ok d => analyzeDefinition src opts d

def recommended (a : Analysis) : Analysis :=
  a.mapFindings fun f => { f with recommendations := some (Split.walk a) }

end Resolve

end FlowAudit
