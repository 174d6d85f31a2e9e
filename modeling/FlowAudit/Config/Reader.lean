import FlowAudit.Config.Setting
import FlowAudit.Json.Reader
import FlowAudit.Path
import FlowAudit.Text.Character
import FlowAudit.Text.Quoted
import FlowAudit.Yaml.ToJson

namespace FlowAudit.Setting

inductive ReadError where
  | json (e : Json.SyntaxError)
  | yaml (e : Yaml.ReadError)
  | repeatedKey (key : String)
  | badNumber (literal : String)
  | notGroup
  | unknownType (ext : String)
  deriving Inhabited, Repr, DecidableEq

def ReadError.message : ReadError → String
  | json e => e.message
  | yaml e => e.message
  | repeatedKey key => "mapping key " ++ Text.quote key ++ " already defined"
  | badNumber literal => "cannot hold the number " ++ literal
  | notGroup => "settings must be a mapping"
  | unknownType ext => "unsupported config type " ++ Text.quote ext

abbrev Entries := List (String × Setting)

def put (entries : Entries) (key : String) (s : Setting) : Entries :=
  entries.filter (·.1 != key) ++ [(key, s)]

/-- The entries with their keys in lower case. Of keys that differ in case alone, one that is not in
lower case counts. -/
def lowered (entries : Entries) : Entries :=
  let (lower, others) := entries.partition fun (key, _) => Text.lower key == key
  (lower ++ others).foldl (fun done (key, s) => put done (Text.lower key) s) []

mutual

def ofJson : Json → Except ReadError Setting
  | .null => .ok missing
  | .bool b => .ok (flag b)
  | .num literal =>
    match Double.ofLiteral? literal.toList with
    | some d => .ok (fraction d)
    | none => .error (.badNumber literal)
  | .str s _ => .ok (text s)
  | .arr items => do
    ofJsonItems items
    return list
  | .obj members => do return group (lowered (← ofJsonMembers members))

def ofJsonItems : List Json → Except ReadError Unit
  | [] => .ok ()
  | j :: rest => do
    let _ ← ofJson j
    ofJsonItems rest

def ofJsonMembers : List (String × Json) → Except ReadError Entries
  | [] => .ok []
  | (key, j) :: rest => do
    let s ← ofJson j
    return (key, s) :: (← ofJsonMembers rest)

end

def ofScalar : Yaml.Scalar → Setting
  | .null => missing
  | .bool b => flag b
  | .int n => whole n
  | .float d => fraction d
  | .timestamp _ => moment
  | .str s => text s

abbrev Key := Yaml.Scalar

def nameOf : Key → String
  | .null => ""
  | .bool b => if b then "true" else "false"
  | .int n => Text.decimalInt n
  | .float d => d.plainText
  | .timestamp s | .str s => s

abbrev KeyedEntries := List (Key × Setting)

def putKeyed (key : Key) (s : Setting) (entries : KeyedEntries) : KeyedEntries :=
  entries.filter (·.1 != key) ++ [(key, s)]

def groupOf (entries : KeyedEntries) : Setting :=
  group (lowered (entries.map fun (key, s) => (nameOf key, s)))

/-- What makes two keys of a mapping the same: their kind, and their text or the name of an anchor. -/
inductive KeyForm where
  | scalar (text : String)
  | alias (name : String)
  | sequence
  | mapping
  deriving DecidableEq

def keyForm : Yaml.Node → KeyForm
  | .scalar _ _ s => .scalar s
  | .alias name _ => .alias name
  | .sequence _ => .sequence
  | .mapping _ => .mapping

def repeated? : List KeyForm → Option KeyForm
  | [] => none
  | key :: rest => if rest.contains key then some key else repeated? rest

def KeyForm.text : KeyForm → String
  | .scalar s | .alias s => s
  | .sequence | .mapping => ""

abbrev Read := StateT Yaml.Effort (Except ReadError)

def spend (aliased : Bool) : Read Unit := fun e =>
  ((Yaml.spend aliased).run e).mapError (.yaml ∘ .conversion)

def refuse {α : Type} (e : Yaml.ConversionError) : Read α := throw (.yaml (.conversion e))

def distinct (entries : List (Yaml.Node × Yaml.Node)) : Read Unit :=
  match repeated? (entries.map fun (key, _) => keyForm key) with
  | some key => throw (.repeatedKey key.text)
  | none => return ()

def scalarOf (tag : String) (plain : Bool) (s : String) : Read Yaml.Scalar :=
  match Yaml.scalarOf .newer tag plain s with
  | .ok v => return v
  | .error e => refuse e

/-- Whether a key is a text by its type, or asks for a merge. -/
def isTextKey : Yaml.Node → Bool
  | .scalar tag plain s =>
    match Yaml.standardName? .newer tag with
    | some name => name == "str" || name == "merge"
    | none =>
      if tag == "" || tag == Yaml.openTag then
        match Yaml.scalar? .newer "" plain s with
        | some (.str _) => true
        | _ => false
      else false
  | .alias _ (some target) => isTextKey target
  | _ => false

/-- Whether the keys of a mapping count as texts: at the top they always do. -/
def hasTextKeys (entries : List (Yaml.Node × Yaml.Node)) : Bool := entries.all fun e => isTextKey e.1

/-- The key that a node makes, which has to be a scalar. Among texts, a key is its text, and a null
makes none. -/
def keyOf (texts aliased : Bool) : Yaml.Node → Read (Option Key)
  | .scalar tag plain s => do
    spend aliased
    match ← scalarOf tag plain s with
    | .null => return if texts then none else some .null
    | .str s => return some (.str s)
    | v => return some (if texts then .str s else v)
  | .alias _ (some target) => do
    spend aliased
    keyOf texts true target
  | .alias name none => refuse (.recursiveAnchor name)
  | _ => refuse .badKey

/-- The keys of a mapping that is about to take entries from others. -/
def ownKeys (aliased : Bool) : List (Yaml.Node × Yaml.Node) → Read (List Key)
  | [] => return []
  | (key, _) :: rest => do
    let k ← keyOf false aliased key
    return k.toList ++ (← ownKeys aliased rest)

mutual

def ofNode (aliased : Bool) : Yaml.Node → Read Setting
  | .scalar tag plain s => do
    spend aliased
    return ofScalar (← scalarOf tag plain s)
  | .sequence items => do
    spend aliased
    ofItems aliased items
    return list
  | .mapping entries => do
    spend aliased
    distinct entries
    return groupOf (← ofEntries (hasTextKeys entries) aliased entries none [] entries).2
  | .alias _ (some target) => do
    spend aliased
    ofNode true target
  | .alias name none => refuse (.recursiveAnchor name)

def ofItems (aliased : Bool) : List Yaml.Node → Read Unit
  | [] => return ()
  | n :: rest => do
    let _ ← ofNode aliased n
    ofItems aliased rest

/-- Adds the entries of a mapping, all of which are `own`: its own ones first, then those that it takes
from others. Where the mapping itself is being taken from, `taken` are the keys that are there
already; their entries are passed over. -/
def ofEntries (texts aliased : Bool) (own : List (Yaml.Node × Yaml.Node)) (taken : Option (List Key))
    (done : KeyedEntries) :
    List (Yaml.Node × Yaml.Node) → Read (Option (List Key) × KeyedEntries)
  | [] => return (taken, done)
  | (key, value) :: rest => do
    if Yaml.isMerge .newer key then
      let (taken, done) ← ofEntries texts aliased own taken done rest
      match taken with
      | some keys =>
        let (keys, done) ← ofMerged texts aliased keys done value
        return (some keys, done)
      | none =>
        let (_, done) ← ofMerged texts aliased (← ownKeys aliased own) done value
        return (none, done)
    else
      match ← keyOf texts aliased key with
      | none => ofEntries texts aliased own taken done rest
      | some k =>
        if taken.any (·.contains k) then ofEntries texts aliased own taken done rest
        else
          let s ← ofNode aliased value
          ofEntries texts aliased own (taken.map (k :: ·)) (putKeyed k s done) rest

/-- Adds the entries of a mapping, or of a list of mappings of which the first ones win. -/
def ofMerged (texts aliased : Bool) (taken : List Key) (done : KeyedEntries) :
    Yaml.Node → Read (List Key × KeyedEntries)
  | .mapping entries => do
    spend aliased
    distinct entries
    let (taken, done) ← ofEntries texts aliased entries (some taken) done entries
    return (taken.getD [], done)
  | .alias _ (some (.mapping entries)) => do
    spend aliased
    spend true
    distinct entries
    let (taken, done) ← ofEntries texts true entries (some taken) done entries
    return (taken.getD [], done)
  | .sequence items => ofMergedItems texts aliased taken done items
  | _ => refuse .badMerge

def ofMergedItems (texts aliased : Bool) (taken : List Key) (done : KeyedEntries) :
    List Yaml.Node → Read (List Key × KeyedEntries)
  | [] => return (taken, done)
  | n :: rest => do
    if !Yaml.isMapping n then refuse .badMerge
    else
      let (taken, done) ← ofMerged texts aliased taken done n
      ofMergedItems texts aliased taken done rest

end

def ofRoot : Yaml.Node → Read Setting
  | .mapping entries => do
    spend false
    distinct entries
    return groupOf (← ofEntries true false entries none [] entries).2
  | n => ofNode false n

def ofYaml (bytes : List UInt8) : Except ReadError Setting := do
  let (ts, stop) := Yaml.tokens .newer (Yaml.supply bytes)
  match ← (Yaml.compose ts stop).mapError (.yaml ∘ .syntaxError) with
  | none => return missing
  | some node => return (← (ofRoot node).run {}).1

def ofFile (path : String) (bytes : List UInt8) : Except ReadError Entries := do
  let ext := Path.ext path
  let s ←
    if ext == ".yaml" || ext == ".yml" then ofYaml bytes
    else if ext == ".json" then
      (Json.parse (Text.Utf8.decodeLossy bytes)).mapError .json >>= ofJson
    else throw (.unknownType ext)
  match s with
  | group entries => return entries
  | missing => return []
  | _ => throw .notGroup

end FlowAudit.Setting
