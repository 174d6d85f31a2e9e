import FlowAudit.Json.Basic
import FlowAudit.Text.Numeral
import FlowAudit.Yaml.Input
import FlowAudit.Yaml.Node
import FlowAudit.Yaml.Scan
import FlowAudit.Yaml.Schema

namespace FlowAudit.Yaml

/-- Why a document has no JSON form. -/
inductive ConversionError where
  | badScalar (text : String)
  | notFinite
  | badKey
  | badMerge
  | tooManyAliases
  | recursiveAnchor (name : String)
  deriving Inhabited, Repr, DecidableEq

def ConversionError.message : ConversionError → String
  | .badScalar text => "cannot decode " ++ text
  | .notFinite => "unsupported value"
  | .badKey => "unsupported map key"
  | .badMerge => "map merge requires map or sequence of maps as the value"
  | .tooManyAliases => "document contains excessive aliasing"
  | .recursiveAnchor name => "anchor '" ++ name ++ "' value contains itself"

/-- How many nodes have been converted, and how many of them through an alias. The document itself
counts as one. -/
structure Effort where
  nodes : Nat := 1
  aliased : Nat := 0

/-- Whether nearly all the work came from aliases: more than 99 in a hundred for small documents,
falling to a tenth between 400000 and 4000000 nodes. -/
def Effort.excessive (e : Effort) : Bool :=
  let allowed :=
    if e.nodes ≤ 400000 then 99 * 3600000
    else if 4000000 ≤ e.nodes then 10 * 3600000
    else 99 * 3600000 - 89 * (e.nodes - 400000)
  100 < e.aliased && 1000 < e.nodes && allowed * e.nodes < e.aliased * 100 * 3600000

abbrev Convert := StateT Effort (Except ConversionError)

def spend (aliased : Bool) : Convert Unit := do
  let e ← get
  let e : Effort := { nodes := e.nodes + 1, aliased := e.aliased + (if aliased then 1 else 0) }
  if e.excessive then throw .tooManyAliases
  set e

def Scalar.toJson : Scalar → Except ConversionError Json
  | .null => .ok .null
  | .bool b => .ok (.bool b)
  | .int n => .ok (Json.ofInt n)
  | .float d =>
    match d.jsonText? with
    | some text => .ok (.num text)
    | none => .error .notFinite
  | .timestamp s | .str s => .ok (.str s)

/-- The key that a scalar makes: its text, but null makes none, nor do whole numbers past the signed
range. -/
def Scalar.keyText : Scalar → Except ConversionError String
  | .null => .error .badKey
  | .bool b => .ok (if b then "true" else "false")
  | .int n => if n < 0x8000000000000000 then .ok (Text.decimalInt n) else .error .badKey
  | .float d => .ok (d.jsonText?.getD d.plainText)
  | .timestamp s | .str s => .ok s

def scalarOf (edition : Edition) (tag : String) (plain : Bool) (text : String) :
    Except ConversionError Scalar :=
  match scalar? edition tag plain text with
  | some v => .ok v
  | none => .error (.badScalar text)

/-- Whether a key asks for another mapping's entries to be put in its place. A quoted one does so only
in the older edition, under the open tag. -/
def isMerge (edition : Edition) : Node → Bool
  | .scalar tag plain text =>
    text == "<<" && (standardName? edition tag == some "merge" || (tag == "" && plain) ||
      (tag == openTag && (plain || edition = .older)))
  | _ => false

def isMapping : Node → Bool
  | .mapping _ => true
  | .alias _ (some (.mapping _)) => true
  | _ => false

abbrev Entries := List (String × Json)

def putEntry (key : String) (value : Json) (entries : Entries) : Entries :=
  entries.filter (·.1 != key) ++ [(key, value)]

def sortEntries (entries : Entries) : Entries := entries.mergeSort fun a b => a.1 ≤ b.1

def keyOf (aliased : Bool) : Node → Convert String
  | .scalar tag plain text => do
    spend aliased
    (← scalarOf .older tag plain text).keyText
  | .alias _ (some target) => do
    spend aliased
    keyOf true target
  | .alias name none => throw (.recursiveAnchor name)
  | _ => throw .badKey

mutual

def toJson (aliased : Bool) : Node → Convert Json
  | .scalar tag plain text => do
    spend aliased
    (← scalarOf .older tag plain text).toJson
  | .sequence items => do
    spend aliased
    return .arr (← itemsToJson aliased items)
  | .mapping entries => do
    spend aliased
    return .obj (sortEntries (← addEntries aliased [] entries))
  | .alias _ (some target) => do
    spend aliased
    toJson true target
  | .alias name none => throw (.recursiveAnchor name)

def itemsToJson (aliased : Bool) : List Node → Convert (List Json)
  | [] => return []
  | n :: rest => do
    let j ← toJson aliased n
    return j :: (← itemsToJson aliased rest)

/-- Adds entries in order, each in the place of an earlier one with its key. -/
def addEntries (aliased : Bool) (done : Entries) : List (Node × Node) → Convert Entries
  | [] => return done
  | (key, value) :: rest => do
    if isMerge .older key then
      addEntries aliased (← mergeEntries aliased done value) rest
    else
      let k ← keyOf aliased key
      let v ← toJson aliased value
      addEntries aliased (putEntry k v done) rest

/-- Adds the entries of a mapping, or of a list of mappings of which the first ones win. -/
def mergeEntries (aliased : Bool) (done : Entries) : Node → Convert Entries
  | .mapping entries => do
    spend aliased
    addEntries aliased done entries
  | .alias _ (some (.mapping entries)) => do
    spend aliased
    spend true
    addEntries true done entries
  | .sequence items => mergeItems aliased done items
  | _ => throw .badMerge

def mergeItems (aliased : Bool) (done : Entries) : List Node → Convert Entries
  | [] => return done
  | n :: rest => do
    let done ← mergeItems aliased done rest
    if isMapping n then mergeEntries aliased done n else throw .badMerge

end

inductive ReadError where
  | syntaxError (e : SyntaxError)
  | conversion (e : ConversionError)
  deriving Inhabited, Repr, DecidableEq

def ReadError.message : ReadError → String
  | .syntaxError e => e.message
  | .conversion e => e.message

/-- The first document of the bytes as a JSON value; no document at all is null. -/
def parseBytes (bytes : List UInt8) : Except ReadError Json := do
  let (ts, stop) := tokens .older (supply bytes)
  match (compose ts stop).mapError ReadError.syntaxError with
  | .error e => throw e
  | .ok none => return .null
  | .ok (some node) =>
    match (toJson false node).run {} with
    | .ok (j, _) => return j
    | .error e => throw (.conversion e)

end FlowAudit.Yaml
