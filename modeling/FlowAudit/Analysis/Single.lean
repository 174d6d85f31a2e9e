import FlowAudit.Analysis.Basic
import FlowAudit.Graph.Build
import FlowAudit.Metrics

namespace FlowAudit

/-- An element that calls a flow. -/
structure Call where
  element : String
  flow : String
  isInLoop : Bool
  deriving Inhabited, Repr, DecidableEq

namespace Call

def all (g : Graph) (s : Loops.State) : List Call :=
  g.elements.filterMap fun e =>
    e.calledFlow?.map fun flow =>
      { element := e.name, flow := flow, isInLoop := (s.context? e.name).any (·.isInLoop) }

/-- The flows called, in the order of their first calls, and whether any call of them is in a loop. -/
def flows (calls : List Call) : List (String × Bool) :=
  let names := calls.foldl (fun seen c => if seen.contains c.flow then seen else seen ++ [c.flow]) []
  names.map fun name => (name, calls.any fun c => c.flow == name && c.isInLoop)

end Call

namespace Findings

def ofMetrics (md : Metadata) (g : Graph) (s : Loops.State) (m : Metrics) (depth : Int) : Findings :=
  { name := md.name
    depth := depth
    elementCount := wrap64 m.elementCount
    kindCounts := m.kindCounts.map fun (k, n) => (k, wrap64 n)
    loopCount := wrap64 m.loopCount
    decisionCount := wrap64 m.decisionCount
    subflowCount := wrap64 m.subflowCount
    crossObjectFormulaCount := wrap64 m.crossObjectFormulaCount
    directDmlCount := wrap64 m.dmlCount
    directSoqlCount := wrap64 m.soqlCount
    complexity := wrap64 m.complexity
    cumulativeComplexity := wrap64 m.complexity
    cumulativeDmlCount := wrap64 m.dmlCount
    cumulativeSoqlCount := wrap64 m.soqlCount
    score := m.score
    shouldBulkify := m.shouldBulkify
    reason := m.reason
    loopContexts := some (Table.ofList ((Loops.contexts g s).map fun (n, c) => (n, .ofContext c)))
    recommendations := some []
    warnings := g.warnings
    hasChildren := true }

end Findings

/-- The findings about one flow with its calls. -/
structure Single where
  findings : Findings
  calls : List Call

def Single.analyze (opts : Loops.Options) (md : Metadata) (depth : Int) : Single :=
  let g := Graph.build md
  let s := Loops.propagate g opts
  { findings := .ofMetrics md g s (.compute md g s depth) depth, calls := Call.all g s }

end FlowAudit
