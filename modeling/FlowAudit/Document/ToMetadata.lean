import FlowAudit.Document.Basic
import FlowAudit.Flow.Metadata
import FlowAudit.Text.Character

namespace FlowAudit.Document

def value (name : String) (d : Document) : Value :=
  let v := (d.get? name).getD (.record [])
  { elementReference := v.textOf "elementReference"
    stringValue := v.textOf "stringValue"
    numberValue := v.textOf "numberValue"
    booleanValue := v.textOf "booleanValue" }

def connector (name : String) (d : Document) : Option String :=
  match d.get? name with
  | none => none
  | some c =>
    let target := c.textOf "targetReference"
    if target == "" then none else some target

def inputAssignment (d : Document) : InputAssignment :=
  let field := d.textOf "field"
  { field := if field == "" then d.textOf "name" else field, value := d.value "value" }

def filter (d : Document) : Filter :=
  { field := d.textOf "field", operator := d.textOf "operator", value := d.value "value" }

def assignmentItem (d : Document) : AssignmentItem :=
  { assignToReference := d.textOf "assignToReference", operator := d.textOf "operator"
    value := d.value "value" }

def condition (d : Document) : Condition :=
  { leftValueReference := d.textOf "leftValueReference", operator := d.textOf "operator"
    rightValue := d.value "rightValue" }

def rule (d : Document) : Rule :=
  { name := d.textOf "name"
    label := d.textOf "label"
    conditionLogic := d.textOf "conditionLogic"
    conditions := (d.listOf "conditions").map condition
    connector := d.connector "connector" }

def step (d : Document) : Step :=
  { name := d.textOf "name"
    label := d.textOf "label"
    object := d.textOf "object"
    inputReference := d.textOf "inputReference"
    outputReference := d.textOf "outputReference"
    fields := ((d.listOf "queriedFields").map fun f => Text.trim f.text) ++
      (d.listOf "fields").map (textOf "name")
    inputAssignments :=
      (d.listOf "inputAssignments" ++ d.listOf "inputParameters").map inputAssignment
    filters := (d.listOf "filters").map filter
    assignmentItems := (d.listOf "assignmentItems").map assignmentItem
    collectionReference := d.textOf "collectionReference"
    iterationOrder := d.textOf "iterationOrder"
    flowName := d.textOf "flowName"
    actionName := d.textOf "actionName"
    actionType := d.textOf "actionType"
    connector := d.connector "connector"
    nextValueConnector := d.connector "nextValueConnector"
    noMoreValuesConnector := d.connector "noMoreValuesConnector"
    defaultConnector := d.connector "defaultConnector"
    faultConnector := d.connector "faultConnector"
    rules := (d.listOf "rules").map rule }

def start (d : Document) : Start :=
  { object := d.textOf "object"
    triggerType := d.textOf "triggerType"
    recordTriggerType := d.textOf "recordTriggerType"
    connector := d.connector "connector" }

def formula (d : Document) : Formula :=
  { name := d.textOf "name", dataType := d.textOf "dataType"
    expression := d.textOf "expression" }

def choiceSet (d : Document) : ChoiceSet :=
  { name := d.textOf "name", dataType := d.textOf "dataType", object := d.textOf "object" }

def flowVariable (d : Document) : Variable :=
  { name := d.textOf "name", dataType := d.textOf "dataType", objectType := d.textOf "objectType"
    isCollection := Text.isWord "true" (d.textOf "isCollection") }

def toMetadata (d : Document) : Metadata :=
  { name := d.textOf "fullName"
    label := d.textOf "label"
    processType := d.textOf "processType"
    status := d.textOf "status"
    apiVersion := d.textOf "apiVersion"
    start := (d.get? "start").map start
    formulas := (d.listOf "formulas").map formula
    dynamicChoiceSets := (d.listOf "dynamicChoiceSets").map choiceSet
    flowVariables := (d.listOf "variables").map flowVariable
    steps := fun k => (d.listOf (Shape.stepsName k)).map step }

end FlowAudit.Document
