import FlowAudit.Graph.Basic
import FlowAudit.Json.Member

namespace FlowAudit

def Value.toJson (v : Value) : Json :=
  .obj (Json.textMember "element_reference" v.elementReference ++
    Json.textMember "string_value" v.stringValue ++ Json.textMember "number_value" v.numberValue ++
    Json.textMember "boolean_value" v.booleanValue)

def Condition.toJson (c : Condition) : Json :=
  .obj [("left_value_reference", .str c.leftValueReference), ("operator", .str c.operator),
    ("right_value", c.rightValue.toJson)]

def InputAssignment.toJson (a : InputAssignment) : Json :=
  .obj [("field", .str a.field), ("value", a.value.toJson)]

def Filter.toJson (f : Filter) : Json :=
  .obj [("field", .str f.field), ("operator", .str f.operator), ("value", f.value.toJson)]

def AssignmentItem.toJson (i : AssignmentItem) : Json :=
  .obj [("assign_to_reference", .str i.assignToReference), ("operator", .str i.operator),
    ("value", i.value.toJson)]

def Edge.toJson (e : Edge) : Json :=
  .obj ([("target", .str e.target), ("kind", .str e.kind.name)] ++ Json.textMember "rule" e.rule ++
    Json.textMember "condition_logic" e.conditionLogic ++
    Json.listMember "conditions" (e.conditions.map Condition.toJson))

def Props.toJson : Props → Json
  | recordOperation object fields inputReference outputReference inputAssignments filters =>
    .obj (Json.textMember "object" object ++ Json.listMember "fields" (fields.map Json.ofText) ++
      Json.textMember "input_reference" inputReference ++
      Json.textMember "output_reference" outputReference ++
      Json.listMember "input_assignments" (inputAssignments.map InputAssignment.toJson) ++
      Json.listMember "filters" (filters.map Filter.toJson))
  | assignment items => .obj (Json.listMember "items" (items.map AssignmentItem.toJson))
  | decision rules => .obj (Json.listMember "rules" (rules.map Json.ofText))
  | loop collection order =>
    .obj (Json.textMember "collection" collection ++ Json.textMember "order" order)
  | subflow flowName inputs =>
    .obj (("flow_name", .str flowName) ::
      Json.listMember "inputs" (inputs.map InputAssignment.toJson))
  | actionCall actionName actionType inputs =>
    .obj (("action_name", .str actionName) :: Json.textMember "action_type" actionType ++
      Json.listMember "inputs" (inputs.map InputAssignment.toJson))
  | screen fields => .obj (Json.listMember "fields" (fields.map Json.ofText))

def Element.toJson (e : Element) : Json :=
  .obj ([("name", .str e.name), ("kind", .str e.kind.name), ("props", e.props.toJson)] ++
    Json.listMember "edges" (e.edges.map Edge.toJson))

namespace Graph

def toJson (g : Graph) : Json :=
  let adjacency := (g.elements.map fun e => (e.name, Json.strings e.edgeTargets)).mergeSort
    fun a b => a.1 ≤ b.1
  .obj ([("elements", if g.elements.isEmpty then .null else .arr (g.elements.map Element.toJson)),
      ("adjacency", .obj adjacency)] ++
    Json.listMember "dangling" (g.dangling.map fun d =>
      .obj [("from", .str d.origin), ("target", .str d.target)]) ++
    Json.listMember "warnings" (g.warnings.map Json.ofText))

end Graph

end FlowAudit
