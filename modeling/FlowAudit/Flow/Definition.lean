import FlowAudit.Path
import FlowAudit.Text.Character
import FlowAudit.Text.Utf8
import FlowAudit.Time

namespace FlowAudit

inductive Format where
  | xml
  | json
  | yaml
  deriving Inhabited, Repr, DecidableEq

namespace Format

def name : Format → String
  | xml => "xml"
  | json => "json"
  | yaml => "yaml"

def ofName? (s : String) : Option Format := [xml, json, yaml].find? (·.name == s)

def ofWord? (s : String) : Option Format :=
  match Text.lower (Text.trim s) with
  | "xml" => some xml
  | "json" => some json
  | "yaml" | "yml" => some yaml
  | _ => none

def ofPath? (path : String) : Option Format :=
  match Text.lower (Path.ext path) with
  | ".xml" | ".flow" => some xml
  | ".json" => some json
  | ".yaml" | ".yml" => some yaml
  | _ => none

/-- The format of a definition: told by its path, or else by its first character that is not
blank. -/
def detect (path : String) (content : List UInt8) : Format :=
  match ofPath? path with
  | some f => f
  | none =>
    match (Text.Utf8.decodeLossy content).dropWhile Text.isBlank with
    | [] | '<' :: _ => xml
    | '{' :: _ | '[' :: _ => json
    | _ => yaml

end Format

def definitionEndings : List String := [".flow-meta.xml", ".flow", ".xml", ".json", ".yaml", ".yml"]

/-- The name of a flow by its file: the last name of the path without a known ending. -/
def flowNameOfPath (path : String) : String :=
  let base := Path.base path
  match definitionEndings.find? fun e => (Text.lower base).endsWith e with
  | some e => String.ofList (base.toList.take (base.length - e.length))
  | none => base

structure Version where
  version : Int := 0
  status : String := ""
  lastModified : Time := .zero
  deriving Inhabited, Repr, DecidableEq

structure Definition where
  name : String := ""
  /-- The name of the format, or empty when it is to be detected. -/
  format : String := ""
  content : List UInt8 := []
  version : Version := {}
  /-- Where the definition came from: a path or a table. -/
  origin : String := ""
  deriving Inhabited, Repr, DecidableEq

end FlowAudit
