import FlowAudit.Loops.Ownership
import FlowAudit.MergeField.Fields
import FlowAudit.Table
import FlowAudit.Text.Numeral

namespace FlowAudit

/-- What decisions, loops and calls add to the complexity. -/
structure Weights where
  decision : Nat
  loop : Nat
  subflow : Nat
  deriving Inhabited, Repr, DecidableEq

namespace Weights

def topLevel : Weights := ⟨2, 3, 2⟩

def nested : Weights := ⟨3, 4, 3⟩

def atDepth (depth : Int) : Weights := if 0 < depth then nested else topLevel

end Weights

/-- The operations that a loop repeats. -/
structure LoopLoad where
  loop : String
  dml : Nat
  soql : Nat
  subflows : Nat
  deriving Inhabited, Repr, DecidableEq

namespace LoopLoad

def ops (l : LoopLoad) : Nat := l.dml + l.soql + l.subflows

/-- What a loop takes from the score: something for each sort of operation in it, and more for each
operation after the fifth. -/
def penalty (l : LoopLoad) : Nat :=
  (if 0 < l.dml then 30 else 0) + (if 0 < l.soql then 20 else 0) + (if 0 < l.subflows then 15 else 0) +
    min 20 ((l.ops - 5) * 2)

end LoopLoad

structure Metrics where
  elementCount : Nat
  kindCounts : Table Nat
  loopCount : Nat
  decisionCount : Nat
  subflowCount : Nat
  crossObjectFormulaCount : Nat
  dmlCount : Nat
  soqlCount : Nat
  complexity : Nat
  /-- The load of every loop, in the order of the graph. -/
  loads : List LoopLoad
  deriving Inhabited, Repr, DecidableEq

namespace Metrics

def countKinds (g : Graph) : Table Nat :=
  Table.ofList ((StepKind.all.map fun k => (k.name, g.count k)).filter fun (_, n) => 0 < n)

def iterated (g : Graph) (s : Loops.State) : List (Element × Loops.Context) :=
  g.elements.filterMap fun e => (s.context? e.name).map (e, ·)

def loadOf (members : List (Element × Loops.Context)) (owners : Loops.Owners) (loop : String) :
    LoopLoad :=
  let kinds := (members.filter fun (_, c) => Loops.nestedUnder c loop owners).map fun (e, _) => e.kind
  { loop := loop
    dml := (kinds.filter (·.isDml)).length
    soql := (kinds.filter (·.isSoql)).length
    subflows := (kinds.filter (· = .subflow)).length }

def loadsOf (g : Graph) (s : Loops.State) : List LoopLoad :=
  let members := iterated g s
  let owners := Loops.ownersOf g s.context?
  g.loops.map fun l => loadOf members owners l.name

/-- The queries beside the lookups: one for each set of choices, one for the record that starts the
flow, and one for each formula that reaches another record. -/
def impliedQueries (md : Metadata) (crossObject : Nat) : Nat :=
  md.dynamicChoiceSets.length + (if md.isRecordTriggered then 1 else 0) + crossObject

def complexityOf (w : Weights) (decisions loops dml soql subflows crossObject : Nat) : Nat :=
  1 + decisions * w.decision + loops * w.loop + dml * 2 + soql * 2 + subflows * w.subflow + crossObject

def compute (md : Metadata) (g : Graph) (s : Loops.State) (depth : Int) : Metrics :=
  let crossObject := (md.formulas.filter fun f => MergeField.isCrossObject f.expression).length
  let dml := g.count .recordCreate + g.count .recordUpdate + g.count .recordDelete
  let soql := g.count .recordLookup + impliedQueries md crossObject
  let loops := g.count .loop
  let decisions := g.count .decision
  let subflows := g.count .subflow
  { elementCount := g.elements.length
    kindCounts := countKinds g
    loopCount := loops
    decisionCount := decisions
    subflowCount := subflows
    crossObjectFormulaCount := crossObject
    dmlCount := dml
    soqlCount := soql
    complexity := complexityOf (.atDepth depth) decisions loops dml soql subflows crossObject
    loads := loadsOf g s }

def deductions (m : Metrics) : Nat :=
  10 * (m.dmlCount - 1) + 5 * (m.soqlCount - 1) + m.loads.foldl (fun n l => n + l.penalty) 0

def score (m : Metrics) : Nat := 100 - m.deductions

def reasons (m : Metrics) : List String :=
  let d := Text.decimal
  (if m.score < 80 then ["bulkification score " ++ d m.score ++ " is below 80"] else []) ++
    (if 0 < m.dmlCount then [d m.dmlCount ++ " DML operation(s)"] else []) ++
    (if 0 < m.soqlCount then [d m.soqlCount ++ " SOQL quer(ies)"] else []) ++
    (if 5 < m.complexity then ["complexity " ++ d m.complexity ++ " exceeds 5"] else []) ++
    (if 0 < m.loopCount then [d m.loopCount ++ " loop(s)"] else [])

def shouldBulkify (m : Metrics) : Bool := !m.reasons.isEmpty

def reason (m : Metrics) : String :=
  if m.reasons.isEmpty then "no bulkification concerns" else "; ".intercalate m.reasons

end Metrics

end FlowAudit
