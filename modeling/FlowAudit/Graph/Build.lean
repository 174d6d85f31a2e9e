import FlowAudit.Failure
import FlowAudit.Graph.Basic

namespace FlowAudit.Graph

/-- The edges of a step: its connectors in a fixed order, then one for each rule of a decision. -/
def edgesOf (k : StepKind) (s : Step) : List Edge :=
  let edge (kind : EdgeKind) (target : Option String) : List Edge :=
    (target.filter (· != "")).toList.map (⟨·, kind, "", "", []⟩)
  edge .connector s.connector ++ edge .nextValue s.nextValueConnector ++
    edge .noMoreValues s.noMoreValuesConnector ++ edge .otherwise s.defaultConnector ++
    edge .fault s.faultConnector ++
    if k = .decision then
      s.rules.filterMap fun r =>
        (r.connector.filter (· != "")).map fun t =>
          { target := t, kind := .rule, rule := r.name, conditionLogic := r.conditionLogic
            conditions := r.conditions }
    else []

/-- The fields that a record operation names, then those it assigns and has not named. -/
def recordFields (s : Step) : List String :=
  s.inputAssignments.foldl (fun fields a =>
    if a.field != "" && !fields.contains a.field then fields ++ [a.field] else fields) s.fields

def propsOf (k : StepKind) (s : Step) : Props :=
  match k with
  | .recordCreate | .recordUpdate | .recordDelete | .recordLookup | .recordRollback =>
    .recordOperation s.object (recordFields s) s.inputReference s.outputReference s.inputAssignments
      s.filters
  | .assignment => .assignment s.assignmentItems
  | .decision => .decision (s.rules.map (·.name))
  | .loop => .loop s.collectionReference s.iterationOrder
  | .subflow => .subflow s.flowName s.inputAssignments
  | .actionCall => .actionCall s.actionName s.actionType s.inputAssignments
  | .screen => .screen s.fields

/-- A step with its kind and its number among the steps of that kind. -/
structure Entry where
  kind : StepKind
  number : Nat
  step : Step

def entries (md : Metadata) : List Entry :=
  StepKind.all.flatMap fun k => (md.steps k).zipIdx.map fun (s, i) => ⟨k, i + 1, s⟩

def declared (md : Metadata) : List String :=
  ((entries md).map (·.step.name)).filter (· != "")

/-- The generated names: `Unnamed`, `Unnamed_2` and so on. -/
def generatedName (n : Nat) : String :=
  if n ≤ 1 then "Unnamed" else "Unnamed_" ++ Text.decimal n

/-- The number of the first generated name after the `n`-th that is not taken; among one more than
are taken there is one. -/
def nextNumber (taken : List String) (n : Nat) : Nat :=
  let candidates := (List.range (taken.length + 1)).map (n + 1 + ·)
  (candidates.find? fun k => !taken.contains (generatedName k)).getD (n + 1 + taken.length)

/-- What has been built so far, and the number of the last generated name. -/
structure Progress where
  graph : Graph := {}
  number : Nat := 0

def Progress.add (name : String) (en : Entry) (p : Progress) : Progress :=
  if p.graph.has name then
    let warning := "duplicate element name " ++ Text.quote name ++ " (" ++ en.kind.name ++
      "); keeping the first definition"
    { p with graph := { p.graph with warnings := p.graph.warnings ++ [warning] } }
  else
    let e : Element := ⟨name, en.kind, propsOf en.kind en.step, edgesOf en.kind en.step⟩
    { p with graph := { p.graph with elements := p.graph.elements ++ [e] } }

def Progress.register (taken : List String) (p : Progress) (en : Entry) : Progress :=
  if en.step.name == "" then
    let n := nextNumber taken p.number
    let name := generatedName n
    let warning := en.kind.name ++ " #" ++ Text.decimal en.number ++ " has no name; registered as " ++
      name
    Progress.add name en
      { graph := { p.graph with warnings := p.graph.warnings ++ [warning] }, number := n }
  else p.add en.step.name en

def danglingOf (g : Graph) : List Dangling :=
  g.elements.flatMap fun e => (e.edgeTargets.filter (!g.has ·)).map (⟨e.name, ·⟩)

def Dangling.warning (d : Dangling) : String :=
  Cause.unresolvedReference.message ++ ": " ++ d.origin ++ " -> " ++ d.target

/-- Steps are taken kind by kind, in the order of the document within a kind. A step without a name is given
one that no step declares, and of several steps with one name the first is kept. -/
def build (md : Metadata) : Graph :=
  let g := ((entries md).foldl (Progress.register (declared md)) {}).graph
  let dangling := danglingOf g
  { g with dangling := dangling, warnings := g.warnings ++ dangling.map Dangling.warning }

end FlowAudit.Graph
