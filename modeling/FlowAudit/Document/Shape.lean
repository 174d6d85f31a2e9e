import FlowAudit.Flow.Kind

namespace FlowAudit.Document

/-- How often a field may occur, and what `null` in its place does: it removes an optional field or a
list, and leaves an embedded record as it is. -/
inductive Cardinality where
  | optional
  | embedded
  | many
  deriving Inhabited, Repr, DecidableEq

inductive Shape where
  | leaf
  | record (fields : List (String × Cardinality × Shape))
  deriving Inhabited, Repr

abbrev Field := String × Cardinality × Shape

namespace Shape

def leaves (names : List String) : List Field := names.map (·, .optional, leaf)

def list (name : String) (fields : List Field) : Field := (name, .many, record fields)

def connector (name : String) : Field := (name, .optional, record (leaves ["targetReference"]))

def value (name : String) : Field :=
  (name, .embedded,
    record (leaves ["elementReference", "stringValue", "numberValue", "booleanValue"]))

def inputs (name : String) : Field := list name (leaves ["field", "name"] ++ [value "value"])

def filters : Field := list "filters" (leaves ["field", "operator"] ++ [value "value"])

def assignmentItems : Field :=
  list "assignmentItems" (leaves ["assignToReference", "operator"] ++ [value "value"])

def conditions : Field :=
  list "conditions" (leaves ["leftValueReference", "operator"] ++ [value "rightValue"])

def rules : Field :=
  list "rules" (leaves ["name", "label", "conditionLogic"] ++ [conditions, connector "connector"])

def stepFields : List Field :=
  leaves ["name", "label", "object", "inputReference", "outputReference", "collectionReference",
      "iterationOrder", "flowName", "actionName", "actionType"] ++
    [("queriedFields", .many, leaf), inputs "inputAssignments", inputs "inputParameters", filters,
      assignmentItems, list "fields" (leaves ["name"]), connector "connector",
      connector "nextValueConnector", connector "noMoreValuesConnector",
      connector "defaultConnector", connector "faultConnector", rules]

def start : Field :=
  ("start", .optional,
    record (leaves ["object", "triggerType", "recordTriggerType"] ++ [connector "connector"]))

def stepsName : StepKind → String
  | .recordCreate => "recordCreates"
  | .recordUpdate => "recordUpdates"
  | .recordDelete => "recordDeletes"
  | .recordLookup => "recordLookups"
  | .recordRollback => "recordRollbacks"
  | .assignment => "assignments"
  | .decision => "decisions"
  | .loop => "loops"
  | .subflow => "subflows"
  | .actionCall => "actionCalls"
  | .screen => "screens"

def flowFields : List Field :=
  leaves ["fullName", "label", "processType", "status", "apiVersion"] ++
    [start, list "formulas" (leaves ["name", "dataType", "expression"]),
      list "dynamicChoiceSets" (leaves ["name", "dataType", "object"]),
      list "variables" (leaves ["name", "dataType", "objectType", "isCollection"])] ++
    StepKind.all.map fun k => list (stepsName k) stepFields

end Shape

end FlowAudit.Document
