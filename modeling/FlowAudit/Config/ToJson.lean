import FlowAudit.Config.Basic
import FlowAudit.Json.Member

namespace FlowAudit

open Json (Mismatch Layers)

def LogConfig.toJson (c : LogConfig) : Json := .obj [("level", .str c.level), ("format", .str c.format)]

def AnalysisConfig.toJson (c : AnalysisConfig) : Json := .obj [
  ("max_depth", Json.ofInt c.maxDepth),
  ("workers", Json.ofInt c.workers),
  ("alternate_passes", .bool c.alternatePasses),
  ("exclude_exit_edges", .bool c.excludeExitEdges)]

def StoreConfig.toJson (c : StoreConfig) : Json := .obj [
  ("driver", .str c.driver),
  ("url", .str c.url),
  ("host", .str c.host),
  ("port", Json.ofInt c.port),
  ("name", .str c.name),
  ("user", .str c.user),
  ("password", .str c.password),
  ("sslmode", .str c.sslMode)]

def ServeConfig.toJson (c : ServeConfig) : Json := .obj [("addr", .str c.addr)]

def DoctorConfig.toJson (c : DoctorConfig) : Json := .obj [
  ("verbose", .bool c.verbose),
  ("stale_after", Json.ofInt c.staleAfter)]

def Config.toJson (c : Config) : Json := .obj [
  ("flows_dir", .str c.flowsDir),
  ("source", .str c.source),
  ("log", c.log.toJson),
  ("analysis", c.analysis.toJson),
  ("store", c.store.toJson),
  ("serve", c.serve.toJson),
  ("doctor", c.doctor.toJson)]

def LogConfig.ofLayers : Layers → Except Mismatch LogConfig :=
  Layers.record ["level", "format"] fun field => do
    return { level := ← (field "level").text, format := ← (field "format").text }

def AnalysisConfig.ofLayers : Layers → Except Mismatch AnalysisConfig :=
  Layers.record ["max_depth", "workers", "alternate_passes", "exclude_exit_edges"] fun field => do
    return {
      maxDepth := ← (field "max_depth").whole
      workers := ← (field "workers").whole
      alternatePasses := ← (field "alternate_passes").flag
      excludeExitEdges := ← (field "exclude_exit_edges").flag }

def StoreConfig.ofLayers : Layers → Except Mismatch StoreConfig :=
  Layers.record ["driver", "url", "host", "port", "name", "user", "password", "sslmode"]
    fun field => do
      return {
        driver := ← (field "driver").text
        url := ← (field "url").text
        host := ← (field "host").text
        port := ← (field "port").whole
        name := ← (field "name").text
        user := ← (field "user").text
        password := ← (field "password").text
        sslMode := ← (field "sslmode").text }

def ServeConfig.ofLayers : Layers → Except Mismatch ServeConfig :=
  Layers.record ["addr"] fun field => do return { addr := ← (field "addr").text }

def DoctorConfig.ofLayers : Layers → Except Mismatch DoctorConfig :=
  Layers.record ["verbose", "stale_after"] fun field => do
    return { verbose := ← (field "verbose").flag, staleAfter := ← (field "stale_after").whole }

def Config.ofLayers : Layers → Except Mismatch Config :=
  Layers.record ["flows_dir", "source", "log", "analysis", "store", "serve", "doctor"]
    fun field => do
      return {
        flowsDir := ← (field "flows_dir").text
        source := ← (field "source").text
        log := ← LogConfig.ofLayers (field "log")
        analysis := ← AnalysisConfig.ofLayers (field "analysis")
        store := ← StoreConfig.ofLayers (field "store")
        serve := ← ServeConfig.ofLayers (field "serve")
        doctor := ← DoctorConfig.ofLayers (field "doctor") }

def Config.ofJson (j : Json) : Except Mismatch Config := Config.ofLayers [j]

end FlowAudit
