import FlowAudit.Flow.Definition
import FlowAudit.Flow.Kind
import FlowAudit.Loops.Context
import FlowAudit.Table

namespace FlowAudit

/-- The place of an element in the loops of its flow, as it is reported. -/
structure LoopContext where
  isInLoop : Bool := false
  loop : String := ""
  depth : Int := 0
  path : Option (List String) := none
  pathKinds : Option (List String) := none
  via : String := ""
  deriving Inhabited, Repr, DecidableEq

def LoopContext.ofContext (c : Loops.Context) : LoopContext :=
  { isInLoop := c.isInLoop, loop := c.loop, depth := c.depth, path := some c.path
    pathKinds := some (c.pathKinds.map StepKind.name), via := c.via.name }

/-- A suggestion how to split a flow. -/
structure Recommendation where
  flow : String := ""
  shouldSplit : Bool := false
  reason : String := ""
  suggestedClassNames : Option (List String) := none
  deriving Inhabited, Repr, DecidableEq

/-- What is found out about one flow. It may come from a text that was stored earlier: so counts are any whole
numbers, kinds are names, and a list that the text never sets is `none`. -/
structure Findings where
  name : String := ""
  /-- The number of calls from the flow that was asked for. -/
  depth : Int := 0
  version : Option Version := none
  elementCount : Int := 0
  kindCounts : Table Int := []
  loopCount : Int := 0
  decisionCount : Int := 0
  subflowCount : Int := 0
  crossObjectFormulaCount : Int := 0
  directDmlCount : Int := 0
  directSoqlCount : Int := 0
  complexity : Int := 0
  /-- The complexity of the flow and of all flows below it. -/
  cumulativeComplexity : Int := 0
  cumulativeDmlCount : Int := 0
  cumulativeSoqlCount : Int := 0
  score : Int := 0
  shouldBulkify : Bool := false
  reason : String := ""
  loopContexts : Option (Table LoopContext) := none
  /-- The flows that are called from inside a loop. -/
  subflowsInLoop : List String := []
  recommendations : Option (List Recommendation) := none
  warnings : List String := []
  /-- Whether the analysis was made for an earlier call. -/
  isCached : Bool := false
  /-- Whether there is a list of called flows, if only an empty one. -/
  hasChildren : Bool := false
  deriving Inhabited, Repr, DecidableEq

/-- The findings about a flow with the analyses of the flows that it calls. -/
inductive Analysis where
  | node (findings : Findings) (children : List (Option Analysis))
  deriving Inhabited, Repr, BEq

namespace Analysis

def findings : Analysis → Findings
  | node f _ => f

def children : Analysis → List (Option Analysis)
  | node _ cs => cs

def called (a : Analysis) : List Analysis := a.children.filterMap id

def name (a : Analysis) : String := a.findings.name

def mapFindings (f : Findings → Findings) : Analysis → Analysis
  | node own children => node (f own) children

def depthExceededReason : String := "maximum recursion depth reached"

def depthExceeded (name : String) (depth : Int) : Analysis :=
  node { name := name, depth := depth, shouldBulkify := true, reason := depthExceededReason
         loopContexts := some [], recommendations := some [], hasChildren := true } []

def isDepthExceeded (a : Analysis) : Bool :=
  a.findings.reason == depthExceededReason && a.findings.elementCount == 0

def hasKind (a : Analysis) (k : StepKind) : Bool :=
  ((Table.get? a.findings.kindCounts k.name).getD 0) > 0

mutual

/-- The analysis and those below it, parents before children. Nothing below one for which `descend`
is false is visited. -/
def visited (descend : Analysis → Bool) : Analysis → List Analysis
  | node f children =>
    node f children :: if descend (node f children) then visitedIn descend children else []

def visitedIn (descend : Analysis → Bool) : List (Option Analysis) → List Analysis
  | [] => []
  | none :: rest => visitedIn descend rest
  | some a :: rest => visited descend a ++ visitedIn descend rest

end

end Analysis

end FlowAudit
