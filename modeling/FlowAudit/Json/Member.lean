import FlowAudit.Json.Basic
import FlowAudit.Text.Character
import FlowAudit.Time

namespace FlowAudit.Json

/-- A value that does not fit its place. -/
inductive Mismatch where
  | textExpected
  | wholeExpected
  | flagExpected
  | timeExpected
  | listExpected
  | objectExpected
  deriving Inhabited, Repr, DecidableEq

def Mismatch.message : Mismatch → String
  | .textExpected => "expected a string"
  | .wholeExpected => "expected a 64-bit integer"
  | .flagExpected => "expected true or false"
  | .timeExpected => "expected a time after RFC 3339"
  | .listExpected => "expected an array"
  | .objectExpected => "expected an object"

def textMember (name s : String) : List (String × Json) := if s == "" then [] else [(name, .str s)]

def listMember (name : String) (items : List Json) : List (String × Json) :=
  if items.isEmpty then [] else [(name, .arr items)]

def ofOption {α : Type} (encode : α → Json) : Option α → Json
  | some a => encode a
  | none => .null

def ofTime (t : Time) : Json := .str t.text

/-- The field that a name means: the one spelt so, or else the one spelt so in another case. -/
def fieldOf (fields : List String) (name : String) : Option String :=
  if fields.contains name then some name
  else fields.find? fun f => Text.fold f == Text.fold name

/-- What is written for one place, the first on the ground: a later value is laid over the earlier. -/
abbrev Layers := List Json

namespace Layers

/-- Lays the values over each other from an empty place on. Null leaves a place as it is. -/
def apply {α : Type} (empty : α) (read : Json → Except Mismatch α) (layers : Layers) :
    Except Mismatch α :=
  layers.foldlM (fun old j => if j.isNull then .ok old else read j) empty

def text (layers : Layers) : Except Mismatch String :=
  layers.apply "" fun
    | .str s _ => .ok s
    | _ => .error .textExpected

def flag (layers : Layers) : Except Mismatch Bool :=
  layers.apply false fun
    | .bool b => .ok b
    | _ => .error .flagExpected

def whole? (literal : String) : Option Int :=
  match literal.toInt? with
  | some n => if -0x8000000000000000 ≤ n && n < 0x8000000000000000 then some n else none
  | none => none

def whole (layers : Layers) : Except Mismatch Int :=
  layers.apply 0 fun
    | .num literal => (whole? literal).elim (.error .wholeExpected) .ok
    | _ => .error .wholeExpected

/-- A time, which is written without escapes. -/
def time (layers : Layers) : Except Mismatch Time :=
  layers.apply .zero fun
    | .str s false => (Time.ofText? s).elim (.error .timeExpected) .ok
    | _ => .error .timeExpected

def record {α : Type} (fields : List String) (read : (String → Layers) → Except Mismatch α)
    (layers : Layers) : Except Mismatch α := do
  let members ← layers.mapM fun
    | .null => .ok []
    | .obj members => .ok members
    | _ => .error .objectExpected
  let named := members.flatten.filterMap fun (name, j) => (fieldOf fields name).map (·, j)
  read fun field => (named.filter (·.1 == field)).map (·.2)

/-- The layers above the last one of which `clears` holds, after those up to it. -/
def divide (clears : Json → Bool) (layers : Layers) : Layers × Layers :=
  let above := (layers.reverse.takeWhile (!clears ·)).reverse
  (layers.take (layers.length - above.length), above)

/-- A value that may be missing: null takes it away. -/
def optional {α : Type} (read : Layers → Except Mismatch α) (layers : Layers) :
    Except Mismatch (Option α) := do
  let (below, above) := layers.divide isNull
  let _ ← read below
  if above.isEmpty then return none else return some (← read above)

def stack : List Layers → List Json → List Layers
  | places, [] => places
  | [], j :: rest => [j] :: stack [] rest
  | place :: places, j :: rest => (place ++ [j]) :: stack places rest

/-- The items of a list; null stands for none at all. -/
def items : Json → Except Mismatch (List Json)
  | .null => .ok []
  | .arr items => .ok items
  | _ => .error .listExpected

def isBare : Json → Bool
  | .null | .arr [] => true
  | _ => false

/-- A list that may be missing. Each item is laid over what earlier lists had at its place, though the
list had become shorter meanwhile; null and the empty list clear all places. -/
def list {α : Type} (read : Layers → Except Mismatch α) (layers : Layers) :
    Except Mismatch (Option (List α)) := do
  let (below, above) := layers.divide isBare
  let _ ← ((← below.mapM items).foldl stack []).mapM read
  let lists ← above.mapM items
  let values ← (lists.foldl stack []).mapM read
  return match layers.getLast? with
    | none | some .null => none
    | some _ => some (values.take ((lists.getLast?.map List.length).getD 0))

/-- A table that may be missing: null takes it away. Later entries replace earlier ones of the name. -/
def table {α : Type} (read : Layers → Except Mismatch α) (layers : Layers) :
    Except Mismatch (Option (List (String × α))) := do
  let entries (layer : Json) : Except Mismatch (List (String × α)) :=
    match layer with
    | .null => .ok []
    | .obj members => members.mapM fun (name, j) => do return (name, ← read [j])
    | _ => .error .objectExpected
  let (below, above) := layers.divide isNull
  let _ ← below.mapM entries
  let found ← above.mapM entries
  return if above.isEmpty then none else some found.flatten

end Layers

end FlowAudit.Json
