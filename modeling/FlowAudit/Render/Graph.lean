import FlowAudit.Analysis.ToJson
import FlowAudit.Graph.ToJson
import FlowAudit.Loops.Propagation
import FlowAudit.Render.Structured

namespace FlowAudit

/-- A graph with the contexts of its elements. -/
structure GraphView where
  flow : String
  graph : Graph
  contexts : Table LoopContext

namespace GraphView

variable (v : GraphView)

def context? (name : String) : Option LoopContext := Table.get? v.contexts name

def edgeLine (e : Edge) : String :=
  "    -> " ++ e.target ++ " (" ++ e.kind.name ++ (if e.rule == "" then "" else " " ++ e.rule) ++ ")"

def elementLines (e : Element) : List String :=
  let marker := match v.context? e.name with
    | some c => " [loop " ++ c.loop ++ ", depth " ++ Text.decimalInt c.depth ++ "]"
    | none => ""
  ("  " ++ e.name ++ " (" ++ e.kind.name ++ ")" ++ marker) :: e.edges.map edgeLine

def toText : String :=
  let g := v.graph
  let lines := (v.flow ++ " (" ++ Text.decimal g.elements.length ++ " elements)") ::
    g.elements.flatMap v.elementLines ++
    g.dangling.map fun d => "  dangling: " ++ d.origin ++ " -> " ++ d.target
  String.join (lines.map (· ++ "\n"))

def dotName (s : String) : String := "\"" ++ s.replace "\"" "\\\"" ++ "\""

def dotNode (e : Element) : String :=
  "  " ++ dotName e.name ++ " [label=" ++ dotName (e.name ++ "\\n" ++ e.kind.name) ++
    (if e.kind = .loop then ", shape=box" else "") ++
    (if (v.context? e.name).any (·.isInLoop) then ", style=filled, fillcolor=lightyellow" else "") ++
    "];"

def dotEdges (e : Element) : List String :=
  (e.edges.filter fun edge => v.graph.has edge.target).map fun edge =>
    "  " ++ dotName e.name ++ " -> " ++ dotName edge.target ++ " [label=" ++ dotName edge.kind.name ++
      (if edge.kind = .fault then ", style=dashed" else "") ++ "];"

def toDot : String :=
  let es := v.graph.elements
  let lines := ("digraph " ++ dotName v.flow ++ " " ++ Text.openBrace) :: es.map v.dotNode ++
    es.flatMap v.dotEdges ++ [Text.closeBrace]
  String.join (lines.map (· ++ "\n"))

def toJson : Json :=
  .obj [("flow", .str v.flow), ("graph", v.graph.toJson),
    ("loop_contexts", Findings.tableJson LoopContext.toJson v.contexts)]

def render (format : String) : Except Failure String :=
  if format == "text" then .ok v.toText
  else if format == "dot" then .ok v.toDot
  else Render.structured format v.toJson

def ofGraph (flow : String) (g : Graph) (s : Loops.State) : GraphView :=
  { flow := flow, graph := g
    contexts := Table.ofList ((Loops.contexts g s).map fun (n, c) => (n, .ofContext c)) }

end GraphView

end FlowAudit
