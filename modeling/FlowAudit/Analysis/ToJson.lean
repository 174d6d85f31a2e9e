import FlowAudit.Analysis.Basic
import FlowAudit.Json.Member

namespace FlowAudit

def Version.toJson (v : Version) : Json :=
  .obj [("version", Json.ofInt v.version), ("status", .str v.status),
    ("last_modified", Json.ofTime v.lastModified)]

def LoopContext.toJson (c : LoopContext) : Json :=
  .obj [("is_in_loop", .bool c.isInLoop), ("loop_reference_name", .str c.loop),
    ("depth", Json.ofInt c.depth), ("path", Json.ofOption Json.strings c.path),
    ("path_kinds", Json.ofOption Json.strings c.pathKinds), ("via", .str c.via)]

def Recommendation.toJson (r : Recommendation) : Json :=
  .obj [("flow", .str r.flow), ("should_split", .bool r.shouldSplit), ("reason", .str r.reason),
    ("suggested_class_names", Json.ofOption Json.strings r.suggestedClassNames)]

namespace Findings

def tableJson {α : Type} (encode : α → Json) (t : Table α) : Json :=
  .obj (t.map fun (k, a) => (k, encode a))

def head (f : Findings) : List (String × Json) :=
  [("name", .str f.name), ("depth", Json.ofInt f.depth)] ++
    (f.version.map fun v => ("version", v.toJson)).toList ++
    [("element_count", Json.ofInt f.elementCount)] ++
    (if f.kindCounts.isEmpty then [] else [("kind_counts", tableJson Json.ofInt f.kindCounts)]) ++
    [("loop_count", Json.ofInt f.loopCount), ("decision_count", Json.ofInt f.decisionCount),
      ("subflow_count", Json.ofInt f.subflowCount),
      ("cross_object_formula_count", Json.ofInt f.crossObjectFormulaCount),
      ("direct_dml_count", Json.ofInt f.directDmlCount),
      ("direct_soql_count", Json.ofInt f.directSoqlCount), ("complexity", Json.ofInt f.complexity),
      ("cumulative_complexity", Json.ofInt f.cumulativeComplexity),
      ("cumulative_dml_count", Json.ofInt f.cumulativeDmlCount),
      ("cumulative_soql_count", Json.ofInt f.cumulativeSoqlCount),
      ("bulkification_score", Json.ofInt f.score), ("should_bulkify", .bool f.shouldBulkify),
      ("reason", .str f.reason),
      ("loop_contexts", Json.ofOption (tableJson LoopContext.toJson) f.loopContexts)]

def tail (f : Findings) : List (String × Json) :=
  Json.listMember "subflows_in_loop" (f.subflowsInLoop.map Json.ofText) ++
    [("recommendations",
      Json.ofOption (fun rs => .arr (rs.map Recommendation.toJson)) f.recommendations)] ++
    Json.listMember "warnings" (f.warnings.map Json.ofText) ++
    (if f.isCached then [("cached", .bool true)] else [])

end Findings

namespace Analysis

mutual

def toJson : Analysis → Json
  | node f children =>
    let called := listToJson children
    .obj (f.head ++ [("child_subflows", if f.hasChildren then .arr called else .null)] ++ f.tail)

def listToJson : List (Option Analysis) → List Json
  | [] => []
  | none :: rest => .null :: listToJson rest
  | some a :: rest => a.toJson :: listToJson rest

end

mutual

/-- The failure to write an analysis below so many arrays and objects, at its first part that cannot be
written. -/
def faultBelow? (depth : Nat) : Analysis → Option String
  | node f children =>
    Json.tooDeep? depth (.obj []) <|>
      (f.version.bind (·.lastModified.unwritable?)).map Time.Unwritable.report <|>
      Json.tooDeep? depth (.obj f.head) <|>
      (if f.hasChildren then
        Json.tooDeep? (depth + 1) (.arr []) <|> listFaultBelow? (depth + 2) children
      else none) <|>
      Json.tooDeep? depth (.obj f.tail)

def listFaultBelow? (depth : Nat) : List (Option Analysis) → Option String
  | [] => none
  | none :: rest => listFaultBelow? depth rest
  | some a :: rest => a.faultBelow? depth <|> listFaultBelow? depth rest

end

def unwritable? (a : Analysis) : Option String := a.faultBelow? 0

end Analysis

end FlowAudit
