import FlowAudit.Json.Basic
import FlowAudit.Text.Character
import FlowAudit.Text.Quoted
import FlowAudit.Time

namespace FlowAudit.Log

inductive Level where
  | debug
  | info
  | warn
  | error
  deriving Inhabited, Repr, DecidableEq

namespace Level

def all : List Level := [debug, info, warn, error]

def rank : Level → Int
  | debug => -4
  | info => 0
  | warn => 4
  | error => 8

def name : Level → String
  | debug => "DEBUG"
  | info => "INFO"
  | warn => "WARN"
  | error => "ERROR"

/-- The level that a word means; a word that is none means `info`. -/
def ofWord (s : String) : Level :=
  match Text.lower (Text.trim s) with
  | "debug" => debug
  | "warn" | "warning" => warn
  | "error" => error
  | _ => info

end Level

inductive Value where
  | text (s : String)
  | whole (n : Int)
  | flag (b : Bool)
  deriving Inhabited, Repr, DecidableEq

structure Entry where
  level : Level
  message : String
  attributes : List (String × Value) := []
  deriving Inhabited, Repr, DecidableEq

def needsQuotes (s : String) : Bool :=
  s.isEmpty || s.toList.any fun c =>
    let n := c.toNat
    if n < 0x80 then n ≤ 0x20 || c == '"' || c == '='
    else n == 0xFFFD || Text.isBlank c || !Text.isPrintable c

def Value.plain : Value → String
  | text s => if needsQuotes s then Text.quote s else s
  | whole n => Text.decimalInt n
  | flag b => if b then "true" else "false"

/-- A character of a JSON line, in which only what has to be is written as an escape. -/
def escapeChar (c : Char) : List Char :=
  let n := c.toNat
  if c == '"' || c == '\\' then ['\\', c]
  else if n == 9 then ['\\', 't']
  else if n == 10 then ['\\', 'n']
  else if n == 13 then ['\\', 'r']
  else if n < 0x20 || n == 0x2028 || n == 0x2029 then '\\' :: 'u' :: Text.hex 4 n
  else [c]

def quoteJson (s : String) : String := String.ofList ('"' :: s.toList.flatMap escapeChar ++ ['"'])

def Value.json : Value → String
  | text s => quoteJson s
  | whole n => Text.decimalInt n
  | flag b => if b then "true" else "false"

inductive Style where
  | plain
  | json
  deriving Inhabited, Repr, DecidableEq

def Style.ofWord (s : String) : Style := if Text.isWord "json" s then .json else .plain

namespace Entry

def plainLine (now : Time) (e : Entry) : String :=
  let time := now.clockText "T" ++ "." ++ Text.padded 3 (now.nanos / 1000000) ++
    Time.zoneText now.offset
  " ".intercalate (["time=" ++ time, "level=" ++ e.level.name, "msg=" ++ (Value.text e.message).plain] ++
    e.attributes.map fun (k, v) => k ++ "=" ++ v.plain)

def jsonLine (now : Time) (e : Entry) : String :=
  let members := [("time", Value.text now.text), ("level", .text e.level.name),
    ("msg", .text e.message)] ++ e.attributes
  Text.braces (",".intercalate (members.map fun (k, v) => quoteJson k ++ ":" ++ v.json))

def line (style : Style) (now : Time) (e : Entry) : String :=
  match style with
  | .plain => e.plainLine now
  | .json => e.jsonLine now

end Entry

def lines (level : Level) (style : Style) (now : Time) (entries : List Entry) : List String :=
  (entries.filter fun e => level.rank ≤ e.level.rank).map (Entry.line style now)

end FlowAudit.Log
