import FlowAudit.Graph.Element

namespace FlowAudit

/-- An edge that leads to no element. -/
structure Dangling where
  origin : String
  target : String
  deriving Inhabited, Repr, DecidableEq

structure Graph where
  elements : List Element := []
  dangling : List Dangling := []
  warnings : List String := []
  deriving Inhabited, Repr, DecidableEq

namespace Graph

variable (g : Graph)

def find? (name : String) : Option Element := g.elements.find? (·.name == name)

def has (name : String) : Bool := g.elements.any (·.name == name)

def kind? (name : String) : Option StepKind := (g.find? name).map (·.kind)

def targetsOf (e : Element) : List String := e.edgeTargets.filter g.has

def targets (name : String) : List String :=
  match g.find? name with
  | some e => g.targetsOf e
  | none => []

def ofKind (k : StepKind) : List Element := g.elements.filter (·.kind = k)

def loops : List Element := g.ofKind .loop

def isLoop (name : String) : Bool := g.kind? name = some .loop

def count (k : StepKind) : Nat := (g.ofKind k).length

end Graph

end FlowAudit
