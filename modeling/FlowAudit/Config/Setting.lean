import FlowAudit.Decimal.Double
import FlowAudit.Duration
import FlowAudit.Yaml.Schema

namespace FlowAudit

inductive Setting where
  | missing
  | flag (b : Bool)
  | whole (n : Int)
  | fraction (d : Double)
  | text (s : String)
  | moment
  | list
  | group (entries : List (String × Setting))
  deriving Inhabited, Repr

namespace Setting

def readLiteral? (s : String) : Option Int := Text.readLiteral? s.toList

def fits (n : Int) : Bool := -0x8000000000000000 ≤ n && n < 0x8000000000000000

def readWhole? (s : String) : Option Int := (readLiteral? s).filter fits

def readFlag? (s : String) : Option Bool :=
  if ["1", "t", "T", "TRUE", "true", "True"].contains s then some true
  else if ["0", "f", "F", "FALSE", "false", "False", ""].contains s then some false
  else none

def toText? : Setting → Option String
  | text s => some s
  | flag b => some (if b then "1" else "0")
  | whole n => some (Text.decimalInt n)
  | fraction d => some d.plainText
  | _ => none

/-- The whole part of a number; the least number of 64 bits stands for what is out of their range. -/
def truncated : Double → Int
  | .finite negative m e =>
    let n := (Double.finite negative m e).truncate
    if fits n then n else -0x8000000000000000
  | _ => -0x8000000000000000

/-- A whole number of 64 bits; what is larger wraps around. -/
def toWhole? : Setting → Option Int
  | whole n => some (wrap64 n)
  | fraction d => some (truncated d)
  | flag b => some (if b then 1 else 0)
  | text s => if s == "" then some 0 else readWhole? s
  | _ => none

def toFlag? : Setting → Option Bool
  | flag b => some b
  | whole n => some (n != 0)
  | fraction (.finite _ 0 _) => some false
  | fraction _ => some true
  | text s => readFlag? s
  | _ => none

/-- A span of time: a text with units, or a number of nanoseconds. -/
def toDuration? : Setting → Option Int
  | text s => Duration.parse? s
  | s => s.toWhole?

def value? (entries : List (String × Setting)) (key : String) : Option Setting :=
  match entries.find? (·.1 == key) with
  | some (_, missing) => none
  | found => found.map (·.2)

end Setting

end FlowAudit
