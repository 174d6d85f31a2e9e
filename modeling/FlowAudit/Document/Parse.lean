import FlowAudit.Document.OfMarkup
import FlowAudit.Document.ToMetadata
import FlowAudit.Failure
import FlowAudit.Flow.Definition
import FlowAudit.Json.Reader
import FlowAudit.Markup.Reader

namespace FlowAudit

namespace Document

def ofMarkup (content : List UInt8) : Except Malformed Document := do
  match ← (Markup.parseBytes content).mapError .markup with
  | .element name children =>
    if name == "Flow" then return ofChildren children else throw (.wrongRoot name)
  | .text _ => throw (.wrongRoot "")

/-- The text of an outer name; anything but a scalar counts as none. -/
def outerName : Json → String
  | .str s _ => s
  | .num literal => literal
  | .bool b => if b then "true" else "false"
  | _ => ""

/-- Gives the document the outer name when it has no name at all of its own. -/
def named (outer : String) (d : Document) : Document :=
  if d.rawText "fullName" == "" then .record (put "fullName" (some (.leaf outer)) d.fields) else d

/-- The document of a JSON value: the object itself, or the one that its member `Metadata` holds, with
the name that stands beside it. -/
def ofJson (j : Json) : Except Malformed Document :=
  match j with
  | .obj members =>
    match j.get? "Metadata" with
    | none => (ofMembers members).mapError .misfit
    | some (.obj inner) => do
      let d ← (ofMembers inner).mapError .misfit
      return d.named (((j.get? "FullName").map outerName).getD "")
    | some _ => .error .metadataNotObject
  | _ => .error .rootNotObject

def ofJsonText (content : List UInt8) : Except Malformed Document := do
  match Text.trimChars (Text.Utf8.decodeLossy content) with
  | '{' :: cs => ofJson (← (Json.parse ('{' :: cs)).mapError .json)
  | _ => throw .rootNotObject

/-- The document of a YAML text, which may not go deeper than JSON does. -/
def ofYaml (content : List UInt8) : Except Malformed Document := do
  let j ← (Yaml.parseBytes content).mapError .yaml
  if Json.maxNesting < j.nesting then throw (.json .tooDeep)
  ofJson j

def ofContent : Format → List UInt8 → Except Malformed Document
  | .xml => ofMarkup
  | .json => ofJsonText
  | .yaml => ofYaml

end Document

namespace Metadata

/-- The canonical form of a content in a format. The name is for a document that does not name
itself. -/
def ofContent (name : String) (format : Format) (content : List UInt8) :
    Except Malformed Metadata := do
  let md := (← Document.ofContent format content).toMetadata
  return if md.name == "" then { md with name := name } else md

def ofDefinition (d : Definition) : Except Malformed Metadata :=
  if d.format == "" then ofContent d.name (.detect d.origin d.content) d.content
  else match Format.ofName? d.format with
    | some f => ofContent d.name f d.content
    | none => .error (.unknownFormat d.format)

end Metadata

end FlowAudit
