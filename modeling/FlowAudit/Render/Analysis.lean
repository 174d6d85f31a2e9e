import FlowAudit.Analysis.ToJson
import FlowAudit.Render.Structured

namespace FlowAudit

def LoopContext.describe (name : String) (c : LoopContext) : String :=
  name ++ " (" ++ c.loop ++ ", depth " ++ Text.decimalInt c.depth ++ ", " ++ c.via ++ ")"

def Recommendation.lines (r : Recommendation) : List String :=
  let names := r.suggestedClassNames.getD []
  ("  " ++ r.flow ++ ": " ++ (if r.shouldSplit then "split" else "keep") ++ " (" ++ r.reason ++ ")") ::
    (if names.isEmpty then [] else ["    classes: " ++ ", ".intercalate names])

namespace Analysis

/-- The lines about a flow itself; nothing but its score for one that lies too many calls deep. -/
def ownLines (indent : String) (a : Analysis) : List String :=
  let f := a.findings
  let d := Text.decimalInt
  let inner := indent ++ "  "
  let tags := (if f.isCached then " [cached]" else "") ++
    (if a.isDepthExceeded then " [depth limit]" else "")
  let loops := f.loopContexts.getD []
  [indent ++ f.name ++ tags,
    inner ++ "score " ++ d f.score ++ ", bulkify " ++ (if f.shouldBulkify then "yes" else "no") ++ ": " ++
      f.reason] ++
  if a.isDepthExceeded then []
  else
    [inner ++ "complexity " ++ d f.complexity ++ " (cumulative " ++ d f.cumulativeComplexity ++
      "), DML " ++ d f.directDmlCount ++ " (cumulative " ++ d f.cumulativeDmlCount ++ "), SOQL " ++
      d f.directSoqlCount ++ " (cumulative " ++ d f.cumulativeSoqlCount ++ ")"] ++
    (if loops.isEmpty then []
      else (inner ++ "in loop:") :: loops.map fun (n, c) => inner ++ "  " ++ c.describe n) ++
    (if f.subflowsInLoop.isEmpty then []
      else [inner ++ "sub-workflows called in loops: " ++ ", ".intercalate f.subflowsInLoop]) ++
    f.warnings.map fun w => inner ++ "warning: " ++ w

mutual

def treeLines (indent : String) : Analysis → List String
  | node f children =>
    ownLines indent (node f children) ++
      if (node f children).isDepthExceeded then [] else listLines (indent ++ "  ") children

def listLines (indent : String) : List (Option Analysis) → List String
  | [] => []
  | none :: rest => listLines indent rest
  | some a :: rest => treeLines indent a ++ listLines indent rest

end

def toText (a : Analysis) : String :=
  let rs := a.findings.recommendations.getD []
  let lines := treeLines "" a ++
    if rs.isEmpty then [] else "" :: "Recommendations:" :: rs.flatMap Recommendation.lines
  String.join (lines.map (· ++ "\n"))

def render (format : String) (a : Analysis) : Except Failure String :=
  if format == "text" then .ok a.toText
  else Render.structuredUnless a.unwritable? format a.toJson

end Analysis

end FlowAudit
