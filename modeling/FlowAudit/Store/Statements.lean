import FlowAudit.Store.Basic

namespace FlowAudit.Store

def runsSchema : String :=
  "CREATE TABLE IF NOT EXISTS flowscope_runs (\n    id TEXT PRIMARY KEY,\n    flow_name TEXT NOT NULL,\n" ++
  "    flow_version INTEGER NOT NULL DEFAULT 0,\n    checksum TEXT NOT NULL,\n" ++
  "    analyzer_version TEXT NOT NULL,\n    bulkification_score INTEGER NOT NULL,\n" ++
  "    should_bulkify BOOLEAN NOT NULL,\n    cumulative_complexity INTEGER NOT NULL,\n" ++
  "    result TEXT NOT NULL,\n    created_at TIMESTAMP NOT NULL\n)"

def runsIndex : String :=
  "CREATE INDEX IF NOT EXISTS flowscope_runs_flow_idx ON flowscope_runs (flow_name, created_at)"

def schema : List String := [runsSchema, runsIndex]

/-- The characters of a text in a literal of SQL, where a quote stands twice. -/
def doubled (cs : List Char) : List Char := cs.flatMap fun c => if c == '\'' then [c, c] else [c]

def quoteText (s : String) : String := "'" ++ String.ofList (doubled s.toList) ++ "'"

def comment (text : String) : String := "-- " ++ text ++ "\n"

def writtenValues (r : Record) : List String := [
  "'" ++ r.id ++ "'",
  quoteText r.flow,
  Text.decimalInt r.flowVersion,
  "'" ++ r.checksum ++ "'",
  "'" ++ analyzerVersion ++ "'",
  Text.decimalInt r.score,
  if r.shouldBulkify then "true" else "false",
  Text.decimalInt r.cumulativeComplexity,
  quoteText r.analysis.toJson.compact,
  "'" ++ r.createdAt.text ++ "'"]

def insertHead : String :=
  "INSERT INTO flowscope_runs (id, flow_name, flow_version, checksum, analyzer_version, " ++
  "bulkification_score, should_bulkify, cumulative_complexity, result, created_at)\nVALUES ("

def script (comments statements : List String) (head : String) (values : List String) : String :=
  String.join (comments.map comment) ++ "\n" ++ String.join (statements.map (· ++ ";\n\n")) ++
    head ++ ", ".intercalate values ++ ");\n"

def plan (r : Record) : String :=
  script ["flowscope run (dry-run)", "Flow: " ++ r.flow, "Checksum: " ++ r.checksum,
    "Analyzer version: " ++ analyzerVersion] schema insertHead (writtenValues r)

end FlowAudit.Store
