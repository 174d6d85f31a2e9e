import FlowAudit.Json.Printer
import FlowAudit.Yaml.KeyOrder
import FlowAudit.Yaml.ToJson
import FlowAudit.Yaml.Writer

namespace FlowAudit.Yaml

def inside : Option Nat → Nat
  | none => 0
  | some n => n + 2

def isSimpleKey (key : String) : Bool := !key.toList.any isLineBreak && key.utf8ByteSize ≤ 128

mutual

/-- Writes a value that stands inside something at the column `outer`, if inside anything. A list in a
mapping is not indented further, unless it begins on the line of an indicator. -/
def write (outer : Option Nat) (inMapping : Bool) : Json → Writer → Writer
  | .null, w => w.word "null"
  | .bool b, w => w.word (if b then "true" else "false")
  | .num literal, w => w.word literal
  | .str s _, w => w.text ((outer.map (· + 2)).getD 2) false s
  | .arr [], w => (w.indicator "[" true true false).indicator "]" false false false
  | .arr (j :: rest), w =>
    let column := if inMapping && !w.isIndent then outer.getD 0 else inside outer
    writeItems column (j :: rest) w
  | .obj [], w => (w.indicator Text.openBrace true true false).indicator Text.closeBrace false false false
  | .obj (m :: rest), w => writeMembers (inside outer) (m :: rest) w

def writeItems (column : Nat) : List Json → Writer → Writer
  | [], w => w
  | j :: rest, w =>
    writeItems column rest
      (write (some column) false j ((w.indentTo column).indicator "-" true false true))

def writeMembers (column : Nat) : List (String × Json) → Writer → Writer
  | [], w => w
  | (key, j) :: rest, w =>
    let w := w.indentTo column
    let w := if isSimpleKey key then (w.text (column + 2) true key).indicator ":" false false false
      else
        let w := (w.indicator "?" true false true).text (column + 2) false key
        (w.indentTo column).indicator ":" true false true
    writeMembers column rest (write (some column) true j w)

end

def print (j : Json) : String :=
  String.ofList ((write none false j {}).indentTo 0).written.reverse

def render (j : Json) : Except ReadError String := do
  let back ← parseBytes j.compact.toUTF8.toList
  return print (inKeyOrder back)

end FlowAudit.Yaml
