import FlowAudit.Analysis.Basic
import FlowAudit.Json.Member

namespace FlowAudit

open Json (Mismatch Layers)

def Version.ofLayers : Layers → Except Mismatch Version :=
  Layers.record ["version", "status", "last_modified"] fun field => do
    return {
      version := ← (field "version").whole
      status := ← (field "status").text
      lastModified := ← (field "last_modified").time }

def LoopContext.ofLayers : Layers → Except Mismatch LoopContext :=
  Layers.record ["is_in_loop", "loop_reference_name", "depth", "path", "path_kinds", "via"]
    fun field => do
      return {
        isInLoop := ← (field "is_in_loop").flag
        loop := ← (field "loop_reference_name").text
        depth := ← (field "depth").whole
        path := ← (field "path").list Layers.text
        pathKinds := ← (field "path_kinds").list Layers.text
        via := ← (field "via").text }

def Recommendation.ofLayers : Layers → Except Mismatch Recommendation :=
  Layers.record ["flow", "should_split", "reason", "suggested_class_names"] fun field => do
    return {
      flow := ← (field "flow").text
      shouldSplit := ← (field "should_split").flag
      reason := ← (field "reason").text
      suggestedClassNames := ← (field "suggested_class_names").list Layers.text }

namespace Findings

def fields : List String :=
  ["name", "depth", "version", "element_count", "kind_counts", "loop_count", "decision_count",
    "subflow_count", "cross_object_formula_count", "direct_dml_count", "direct_soql_count",
    "complexity", "cumulative_complexity", "cumulative_dml_count", "cumulative_soql_count",
    "bulkification_score", "should_bulkify", "reason", "loop_contexts", "child_subflows",
    "subflows_in_loop", "recommendations", "warnings", "cached"]

/-- The findings that the layers of the fields hold, when it is known whether there is a list of
called flows. -/
def ofFields (hasChildren : Bool) (field : String → Layers) : Except Mismatch Findings := do
  return {
    name := ← (field "name").text
    depth := ← (field "depth").whole
    version := ← (field "version").optional Version.ofLayers
    elementCount := ← (field "element_count").whole
    kindCounts := Table.ofList ((← (field "kind_counts").table Layers.whole).getD [])
    loopCount := ← (field "loop_count").whole
    decisionCount := ← (field "decision_count").whole
    subflowCount := ← (field "subflow_count").whole
    crossObjectFormulaCount := ← (field "cross_object_formula_count").whole
    directDmlCount := ← (field "direct_dml_count").whole
    directSoqlCount := ← (field "direct_soql_count").whole
    complexity := ← (field "complexity").whole
    cumulativeComplexity := ← (field "cumulative_complexity").whole
    cumulativeDmlCount := ← (field "cumulative_dml_count").whole
    cumulativeSoqlCount := ← (field "cumulative_soql_count").whole
    score := ← (field "bulkification_score").whole
    shouldBulkify := ← (field "should_bulkify").flag
    reason := ← (field "reason").text
    loopContexts := (← (field "loop_contexts").table LoopContext.ofLayers).map Table.ofList
    subflowsInLoop := (← (field "subflows_in_loop").list Layers.text).getD []
    recommendations := ← (field "recommendations").list Recommendation.ofLayers
    warnings := (← (field "warnings").list Layers.text).getD []
    isCached := ← (field "cached").flag
    hasChildren := hasChildren }

end Findings

namespace Analysis

def ofLayers : (fuel : Nat) → Layers → Except Mismatch Analysis
  | 0, _ => .error .objectExpected
  | fuel + 1, layers =>
    layers.record Findings.fields fun field => do
      let children ← (field "child_subflows").list (Layers.optional (ofLayers fuel))
      return node (← Findings.ofFields children.isSome field) (children.getD [])

/-- The analysis that a JSON value stands for; null stands for an empty one. -/
def ofJson (j : Json) : Except Mismatch Analysis := ofLayers (j.nesting + 1) [j]

end Analysis

end FlowAudit
