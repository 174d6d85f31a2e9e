import FlowAudit.Flow.Metadata

namespace FlowAudit

/-- The connector that an edge comes from. -/
inductive EdgeKind where
  | connector
  | nextValue
  | noMoreValues
  | otherwise
  | fault
  | rule
  deriving Inhabited, Repr, DecidableEq

def EdgeKind.name : EdgeKind → String
  | connector => "connector"
  | nextValue => "next_value"
  | noMoreValues => "no_more_values"
  | otherwise => "default"
  | fault => "fault"
  | rule => "rule"

/-- An outgoing edge. The edge of a decision's rule carries the rule. -/
structure Edge where
  target : String
  kind : EdgeKind
  rule : String := ""
  conditionLogic : String := ""
  conditions : List Condition := []
  deriving Inhabited, Repr, DecidableEq

inductive Props where
  | recordOperation (object : String) (fields : List String)
      (inputReference outputReference : String) (inputAssignments : List InputAssignment)
      (filters : List Filter)
  | assignment (items : List AssignmentItem)
  | decision (rules : List String)
  | loop (collection order : String)
  | subflow (flowName : String) (inputs : List InputAssignment)
  | actionCall (actionName actionType : String) (inputs : List InputAssignment)
  | screen (fields : List String)
  deriving Inhabited, Repr, DecidableEq

def setExpressions (values : List Value) : List String :=
  (values.map Value.expression).filter (· != "")

def Props.valueExpressions : Props → List String
  | recordOperation _ _ inputReference _ inputAssignments filters =>
    [inputReference].filter (· != "") ++
      setExpressions (inputAssignments.map (·.value) ++ filters.map (·.value))
  | assignment items => setExpressions (items.map (·.value))
  | subflow _ inputs | actionCall _ _ inputs => setExpressions (inputs.map (·.value))
  | decision _ | loop _ _ | screen _ => []

structure Element where
  name : String
  kind : StepKind
  props : Props
  edges : List Edge
  deriving Inhabited, Repr, DecidableEq

namespace Element

def valueExpressions (e : Element) : List String := e.props.valueExpressions

def edgeTargets (e : Element) : List String :=
  e.edges.foldl (fun seen edge => if seen.contains edge.target then seen else seen ++ [edge.target]) []

/-- The flow that the element calls. An action calls one only when its type says so. -/
def calledFlow? (e : Element) : Option String :=
  match e.props with
  | .subflow flowName _ => if flowName == "" then none else some flowName
  | .actionCall actionName actionType _ =>
    if actionType == "flow" && actionName != "" then some actionName else none
  | _ => none

end Element

end FlowAudit
