namespace FlowAudit

/-- A typed value holder, in which normally one field is set. -/
structure Value where
  elementReference : String := ""
  stringValue : String := ""
  numberValue : String := ""
  booleanValue : String := ""
  deriving Inhabited, Repr, DecidableEq

namespace Value

/-- The value as an expression. A reference to an element comes before the literals. -/
def expression (v : Value) : String :=
  if v.elementReference != "" then v.elementReference
  else if v.stringValue != "" then v.stringValue
  else if v.numberValue != "" then v.numberValue
  else v.booleanValue

def isZero (v : Value) : Bool := v = {}

end Value

/-- One comparison of a decision's rule. -/
structure Condition where
  leftValueReference : String := ""
  operator : String := ""
  rightValue : Value := {}
  deriving Inhabited, Repr, DecidableEq

/-- A field or parameter bound to a value. -/
structure InputAssignment where
  field : String := ""
  value : Value := {}
  deriving Inhabited, Repr, DecidableEq

/-- A criterion of a record operation. -/
structure Filter where
  field : String := ""
  operator : String := ""
  value : Value := {}
  deriving Inhabited, Repr, DecidableEq

/-- One operation of an assignment. -/
structure AssignmentItem where
  assignToReference : String := ""
  operator : String := ""
  value : Value := {}
  deriving Inhabited, Repr, DecidableEq

end FlowAudit
