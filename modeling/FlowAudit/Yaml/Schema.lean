import FlowAudit.Decimal.Double
import FlowAudit.Text.Base64
import FlowAudit.Text.Utf8
import FlowAudit.Yaml.Cursor
import FlowAudit.Yaml.Timestamp

namespace FlowAudit.Yaml

inductive Scalar where
  | null
  | bool (b : Bool)
  | int (n : Int)
  | float (d : Double)
  | timestamp (text : String)
  | str (text : String)
  deriving Inhabited, Repr, DecidableEq

def standardTag (name : String) : String := "tag:yaml.org,2002:" ++ name

def Scalar.tag : Scalar → String
  | .null => standardTag "null"
  | .bool _ => standardTag "bool"
  | .int _ => standardTag "int"
  | .float _ => standardTag "float"
  | .timestamp _ => standardTag "timestamp"
  | .str _ => standardTag "str"

def truthWord? (edition : Edition) (s : String) : Option Bool :=
  if ["true", "True", "TRUE"].contains s then some true
  else if ["false", "False", "FALSE"].contains s then some false
  else if edition = .newer then none
  else if ["y", "Y", "yes", "Yes", "YES", "on", "On", "ON"].contains s then some true
  else if ["n", "N", "no", "No", "NO", "off", "Off", "OFF"].contains s then some false
  else none

def word? (edition : Edition) (s : String) : Option Scalar :=
  if ["", "~", "null", "Null", "NULL"].contains s then some .null
  else if [".nan", ".NaN", ".NAN"].contains s then some (.float .nan)
  else if [".inf", ".Inf", ".INF", "+.inf", "+.Inf", "+.INF"].contains s then
    some (.float (.infinite false))
  else if ["-.inf", "-.Inf", "-.INF"].contains s then some (.float (.infinite true))
  else (truthWord? edition s).map .bool

def signed64? (negative : Bool) (n : Nat) : Option Int :=
  if negative then if n ≤ 0x8000000000000000 then some (-(n : Int)) else none
  else if n < 0x8000000000000000 then some n else none

def readInt? (cs : List Char) : Option Int :=
  let (negative, digits) := Text.splitSign cs
  match (Text.readBased? digits).bind (signed64? negative) with
  | some n => some n
  | none =>
    match Text.readBased? cs with
    | some n => if n < 0x10000000000000000 then some n else none
    | none => none

def readMarked? (mark : Char) (base : Nat) (cs : List Char) : Option Int :=
  match cs with
  | '0' :: x :: rest =>
    if x == mark then
      let (negative, digits) := Text.splitSign rest
      (Text.readDigits? base digits).bind (signed64? negative)
    else none
  | _ => none

def number? (edition : Edition) (s : String) : Option Scalar :=
  let cs := s.toList.filter (· != '_')
  match readInt? cs with
  | some n => some (.int n)
  | none =>
    match Double.ofLiteral? cs with
    | some d => some (.float d)
    | none =>
      match readMarked? 'b' 2 cs with
      | some n => some (.int n)
      | none => if edition = .newer then (readMarked? 'o' 8 cs).map .int else none

def resolve (edition : Edition) (dates : Bool) (s : String) : Scalar :=
  match word? edition s with
  | some v => v
  | none =>
    match s.toList with
    | [] => .null
    | c :: _ =>
      if c == '.' then
        match Double.ofDividedLiteral? s.toList with
        | some d => .float d
        | none => .str s
      else if c.isDigit || c == '+' || c == '-' then
        if dates && Timestamp.isTimestamp s then .timestamp s
        else (number? edition s).getD (.str s)
      else .str s

def widen? (n : Int) : Option Double :=
  if n == 0 then some (.finite false 0 0)
  else if n < 0x8000000000000000 then Double.ofFraction? (n < 0) n.natAbs 1
  else none

/-- The name of a standard type in a tag. The newer edition also knows it by its short form. -/
def standardName? (edition : Edition) (tag : String) : Option String :=
  let names := ["str", "binary", "bool", "int", "float", "null", "timestamp", "merge"]
  names.find? fun name => tag == standardTag name || (edition = .newer && tag == "!!" ++ name)

/-- The meaning of a scalar with a tag: the tag has to be the type of its text. A whole number will do
for a fraction; a text is anything; a tag that is not a standard one makes a text. -/
def resolveTagged (edition : Edition) (tag s : String) : Option Scalar :=
  match standardName? edition tag with
  | none | some "str" | some "merge" => some (.str s)
  | some "binary" =>
    (Text.Base64.decode? s).map fun bytes => .str (String.ofList (Text.Utf8.decodeLossy bytes))
  | some name =>
    let v := resolve edition (name == "timestamp") s
    if v.tag == standardTag name then some v
    else match v with
      | .int n => if name == "float" then (widen? n).map .float else none
      | _ => none

def openTag : String := "!"

/-- The meaning of a scalar. Without a tag, the text of a plain one decides. The open tag makes a text
in the older edition, and is like none in the newer one. -/
def scalar? (edition : Edition) (tag : String) (plain : Bool) (s : String) : Option Scalar :=
  if tag == "" || (tag == openTag && edition = .newer) then
    some (if plain then resolve edition true s else .str s)
  else resolveTagged edition tag s

end FlowAudit.Yaml
