import FlowAudit.Flow.Kind

namespace FlowAudit.Loops

/-- How an element was found to be in a loop: along connectors, or by the loop's variable in one of
its values. -/
inductive Via where
  | connector
  | reference
  deriving Inhabited, Repr, DecidableEq

def Via.name : Via → String
  | connector => "connector"
  | reference => "reference"

/-- An element's innermost known loop, how deeply that is nested, and the elements passed on the way
from the loop to the element. -/
structure Context where
  isInLoop : Bool := true
  loop : String
  depth : Nat
  path : List String
  pathKinds : List StepKind
  via : Via
  deriving Inhabited, Repr, DecidableEq

end FlowAudit.Loops
