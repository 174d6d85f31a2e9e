import FlowAudit.Flow.Kind
import FlowAudit.Flow.Value

namespace FlowAudit

/-- One outcome of a decision. -/
structure Rule where
  name : String := ""
  label : String := ""
  conditionLogic : String := ""
  conditions : List Condition := []
  connector : Option String := none
  deriving Inhabited, Repr, DecidableEq

/-- A step of any kind: the properties of all of them together. -/
structure Step where
  name : String := ""
  label : String := ""
  object : String := ""
  inputReference : String := ""
  outputReference : String := ""
  fields : List String := []
  inputAssignments : List InputAssignment := []
  filters : List Filter := []
  assignmentItems : List AssignmentItem := []
  collectionReference : String := ""
  iterationOrder : String := ""
  flowName : String := ""
  actionName : String := ""
  actionType : String := ""
  connector : Option String := none
  nextValueConnector : Option String := none
  noMoreValuesConnector : Option String := none
  defaultConnector : Option String := none
  faultConnector : Option String := none
  rules : List Rule := []
  deriving Inhabited, Repr, DecidableEq

/-- How a flow is launched. -/
structure Start where
  object : String := ""
  triggerType : String := ""
  recordTriggerType : String := ""
  connector : Option String := none
  deriving Inhabited, Repr, DecidableEq

/-- A named formula. -/
structure Formula where
  name : String := ""
  dataType : String := ""
  expression : String := ""
  deriving Inhabited, Repr, DecidableEq

/-- A choice set filled by a query when its screen is shown. -/
structure ChoiceSet where
  name : String := ""
  dataType : String := ""
  object : String := ""
  deriving Inhabited, Repr, DecidableEq

structure Variable where
  name : String := ""
  dataType : String := ""
  objectType : String := ""
  isCollection : Bool := false
  deriving Inhabited, Repr, DecidableEq

structure Metadata where
  name : String := ""
  label : String := ""
  processType : String := ""
  status : String := ""
  apiVersion : String := ""
  start : Option Start := none
  formulas : List Formula := []
  dynamicChoiceSets : List ChoiceSet := []
  flowVariables : List Variable := []
  steps : StepKind → List Step := fun _ => []
  deriving Inhabited

namespace Metadata

def stepCount (md : Metadata) : Nat := StepKind.all.foldl (fun n k => n + (md.steps k).length) 0

def isRecordTriggered (md : Metadata) : Bool :=
  match md.start with
  | some s => "Record".isPrefixOf s.triggerType
  | none => false

end Metadata

end FlowAudit
