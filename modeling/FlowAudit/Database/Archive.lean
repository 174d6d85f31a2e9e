import FlowAudit.Database.Basic
import FlowAudit.Json.Member
import FlowAudit.Json.Printer
import FlowAudit.Json.Reader

namespace FlowAudit

open Json (Mismatch Layers)

def Run.toJson (r : Run) : Json := .obj [
  ("id", .str r.id),
  ("flow", .str r.flow),
  ("flow_version", Json.ofInt r.flowVersion),
  ("checksum", .str r.checksum),
  ("analyzer_version", .str r.analyzerVersion),
  ("score", Json.ofInt r.score),
  ("should_bulkify", .bool r.shouldBulkify),
  ("cumulative_complexity", Json.ofInt r.cumulativeComplexity),
  ("result", .str r.result),
  ("created_at", Json.ofTime r.createdAt)]

def Run.ofLayers : Layers → Except Mismatch Run :=
  Layers.record
    ["id", "flow", "flow_version", "checksum", "analyzer_version", "score", "should_bulkify",
      "cumulative_complexity", "result", "created_at"]
    fun field => do
      return {
        id := ← (field "id").text
        flow := ← (field "flow").text
        flowVersion := ← (field "flow_version").whole
        checksum := ← (field "checksum").text
        analyzerVersion := ← (field "analyzer_version").text
        score := ← (field "score").whole
        shouldBulkify := ← (field "should_bulkify").flag
        cumulativeComplexity := ← (field "cumulative_complexity").whole
        result := ← (field "result").text
        createdAt := ← (field "created_at").time }

namespace StoredDefinition

def bodyText (body : List UInt8) : String := String.ofList (body.flatMap fun b => Text.hex 2 b.toNat)

def readBody : List Char → List UInt8
  | a :: b :: rest =>
    (((Text.digitValue? a).getD 0) * 16 + (Text.digitValue? b).getD 0).toUInt8 :: readBody rest
  | _ => []

def toJson (name : String) (d : StoredDefinition) : Json := .obj [
  ("name", .str name),
  ("version", Json.ofInt d.version),
  ("status", .str d.status),
  ("last_modified", Json.ofTime d.lastModified),
  ("format", .str d.format),
  ("body", .str (bodyText d.body))]

def ofLayers : Layers → Except Mismatch (String × StoredDefinition) :=
  Layers.record ["name", "version", "status", "last_modified", "format", "body"] fun field => do
    return (← (field "name").text, {
      version := ← (field "version").whole
      status := ← (field "status").text
      lastModified := ← (field "last_modified").time
      format := ← (field "format").text
      body := readBody (← (field "body").text).toList })

end StoredDefinition

namespace Database

def toJson (db : Database) : Json := .obj (
  (db.runs.map fun runs => (runsTable, Json.arr (runs.map Run.toJson))).toList ++
  (db.definitions.map fun t =>
    (definitionsTable, Json.arr (t.map fun (name, d) => d.toJson name))).toList)

def ofLayers : Layers → Except Mismatch Database :=
  Layers.record [runsTable, definitionsTable] fun field => do
    return {
      runs := ← (field runsTable).list Run.ofLayers
      definitions := (← (field definitionsTable).list StoredDefinition.ofLayers).map Table.ofList }

def archive (db : Database) : String := db.toJson.compact

def ofArchive (text : String) : Database :=
  if text == "" then {}
  else match Json.parseText text with
    | .ok (.obj members) =>
      match ofLayers [.obj members] with
      | .ok db => db
      | .error _ => { isForeign := true }
    | _ => { isForeign := true }

end Database

end FlowAudit
